import BoardBench.Proofs.Text.Utf8
import Mathlib.Data.Nat.Find

/-!
# Lossy reading by its description

Main result: lossy reading takes a byte string apart into encoded characters and maximal invalid
prefixes, and writes U+FFFD for each of the latter. This is the only way to take it apart.

Proof strategy: a sequence is under way after some bytes exactly if they are the beginning of an
encoded character. One direction follows from the decoder, which would have answered too early, the
other one by going on with bytes that the sequence accepts. So the decoder gives a sequence up at
the byte with which no character could go on.
-/
namespace BoardBench

open String (utf8EncodeChar)

/-! ### The description -/

/-- The bytes begin the encoding of a character and do not complete it. -/
structure IsBegun (part : Bytes) : Prop where
  some : part ≠ []
  goesOn : ∃ char rest, rest ≠ [] ∧ utf8EncodeChar char = part ++ rest

/-- No character can be read at the start of `part ++ rest`, and `part` is as much as there is of
the beginning of one, or else a single byte. -/
structure IsInvalid (part rest : Bytes) : Prop where
  unreadable : ∀ char, ¬utf8EncodeChar char <+: part ++ rest
  cut : IsBegun part ∨ part.length = 1
  longest : ∀ longer, longer <+: part ++ rest → IsBegun longer → longer.length ≤ part.length

/-- What lossy reading makes of a byte string. -/
inductive IsLossy : Bytes → List Char → Prop
  | done : IsLossy [] []
  | char (char : Char) {rest : Bytes} {text : List Char} : IsLossy rest text →
    IsLossy (utf8EncodeChar char ++ rest) (char :: text)
  | invalid {part rest : Bytes} {text : List Char} : IsInvalid part rest → IsLossy rest text →
    IsLossy (part ++ rest) ('\uFFFD' :: text)

theorem IsBegun.of_append {part more : Bytes} (some : part ≠ []) (begun : IsBegun (part ++ more)) :
    IsBegun part := by
  obtain ⟨-, char, rest, left, whole⟩ := begun
  exact ⟨some, char, more ++ rest, by simp [left], by rw [whole, List.append_assoc]⟩

/-! ### Characters by their bytes -/

theorem toNat_val_ofNat {code : Nat} (valid : code.isValidChar) :
    (Char.ofNat code).val.toNat = code := by
  rw [Char.ofNat, dif_pos valid]
  rfl

theorem encodeChar_one {code : Nat} (small : code < 0x80) :
    utf8EncodeChar (Char.ofNat code) = [UInt8.ofNat code] := by
  have value : (Char.ofNat code).val.toNat = code := toNat_val_ofNat (.inl (by omega))
  simp only [utf8EncodeChar, value]
  rw [if_pos (by omega)]

theorem encodeChar_two {high low : Nat} (long : 2 ≤ high) (small : high < 32) (digit : low < 64) :
    utf8EncodeChar (Char.ofNat (high * 64 + low)) =
      [UInt8.ofNat (high + 0xC0), UInt8.ofNat (low + 0x80)] := by
  have value : (Char.ofNat (high * 64 + low)).val.toNat = high * 64 + low :=
    toNat_val_ofNat (.inl (by omega))
  have lead : (high * 64 + low) / 64 % 32 = high := by omega
  have tail : (high * 64 + low) % 64 = low := by omega
  simp only [utf8EncodeChar, value]
  rw [if_neg (by omega), if_pos (by omega), lead, tail]

theorem encodeChar_three {high middle low : Nat} (small : high < 16) (digit : middle < 64)
    (last : low < 64) (long : 0x20 ≤ high * 64 + middle)
    (scalar : high * 64 + middle < 0x360 ∨ 0x37F < high * 64 + middle) :
    utf8EncodeChar (Char.ofNat ((high * 64 + middle) * 64 + low)) =
      [UInt8.ofNat (high + 0xE0), UInt8.ofNat (middle + 0x80), UInt8.ofNat (low + 0x80)] := by
  have valid : ((high * 64 + middle) * 64 + low).isValidChar := by
    rcases scalar with below | above
    · exact .inl (by omega)
    · exact .inr ⟨by omega, by omega⟩
  have lead : ((high * 64 + middle) * 64 + low) / 4096 % 16 = high := by omega
  have second : ((high * 64 + middle) * 64 + low) / 64 % 64 = middle := by omega
  have tail : ((high * 64 + middle) * 64 + low) % 64 = low := by omega
  simp only [utf8EncodeChar, toNat_val_ofNat valid]
  rw [if_neg (by omega), if_neg (by omega), if_pos (by omega), lead, second, tail]

theorem encodeChar_four {high second third low : Nat} (digit : second < 64) (next : third < 64)
    (last : low < 64) (long : 0x10 ≤ high * 64 + second) (scalar : high * 64 + second < 0x110) :
    utf8EncodeChar (Char.ofNat (((high * 64 + second) * 64 + third) * 64 + low)) =
      [UInt8.ofNat (high + 0xF0), UInt8.ofNat (second + 0x80), UInt8.ofNat (third + 0x80),
        UInt8.ofNat (low + 0x80)] := by
  have valid : (((high * 64 + second) * 64 + third) * 64 + low).isValidChar :=
    .inr ⟨by omega, by omega⟩
  have lead : (((high * 64 + second) * 64 + third) * 64 + low) / 262144 % 8 = high := by omega
  have middle : (((high * 64 + second) * 64 + third) * 64 + low) / 4096 % 64 = second := by omega
  have behind : (((high * 64 + second) * 64 + third) * 64 + low) / 64 % 64 = third := by omega
  have tail : (((high * 64 + second) * 64 + third) * 64 + low) % 64 = low := by omega
  simp only [utf8EncodeChar, toNat_val_ofNat valid]
  rw [if_neg (by omega), if_neg (by omega), if_neg (by omega), lead, middle, behind, tail]

/-! ### Sequences and their bytes -/

namespace Sequence

/-- The sequence that a lead byte opens, by the number of bytes that are due. -/
theorem opened?_cases {byte : Nat} {seq : Sequence} (opened : opened? byte = some seq) :
    (seq.due = 1 ∧ byte = seq.bits + 0xC0 ∧ 2 ≤ seq.bits ∧ seq.bits < 32 ∧
        seq.low = 0x80 ∧ seq.high = 0xBF) ∨
      (seq.due = 2 ∧ byte = seq.bits + 0xE0 ∧ seq.bits < 16 ∧ 0x80 ≤ seq.low ∧
        seq.low ≤ seq.high ∧ seq.high ≤ 0xBF ∧ 0x20 ≤ seq.bits * 64 + (seq.low - 0x80) ∧
        (seq.bits * 64 + (seq.high - 0x80) < 0x360 ∨ 0x37F < seq.bits * 64 + (seq.low - 0x80))) ∨
      (seq.due = 3 ∧ byte = seq.bits + 0xF0 ∧ 0x80 ≤ seq.low ∧ seq.low ≤ seq.high ∧
        seq.high ≤ 0xBF ∧ 0x10 ≤ seq.bits * 64 + (seq.low - 0x80) ∧
        seq.bits * 64 + (seq.high - 0x80) < 0x110) := by
  unfold opened? at opened
  repeat' split at opened
  all_goals
    simp only [Option.some.injEq, reduceCtorEq] at opened
  all_goals
    subst opened
    simp only [Nat.reduceEqDiff, true_and, false_and, and_true, or_false, false_or]
    omega

/-- The sequence after one more byte. -/
def next (seq : Sequence) (byte : Nat) : Sequence where
  bits := seq.bits * 64 + (byte - 0x80)
  due := seq.due - 1

@[simp]
theorem bits_next (seq : Sequence) (byte : Nat) :
    (seq.next byte).bits = seq.bits * 64 + (byte - 0x80) :=
  rfl

@[simp]
theorem due_next (seq : Sequence) (byte : Nat) : (seq.next byte).due = seq.due - 1 :=
  rfl

@[simp]
theorem low_next (seq : Sequence) (byte : Nat) : (seq.next byte).low = 0x80 :=
  rfl

@[simp]
theorem high_next (seq : Sequence) (byte : Nat) : (seq.next byte).high = 0xBF :=
  rfl

/-- The sequence is under way after these bytes. -/
inductive Follows : Sequence → Bytes → Prop
  | opened {seq : Sequence} {byte : UInt8} : opened? byte.toNat = some seq → Follows seq [byte]
  | continued {seq : Sequence} {part : Bytes} {byte : UInt8} : Follows seq part →
    seq.accepts byte.toNat = true → 1 < seq.due → Follows (seq.next byte.toNat) (part ++ [byte])

variable {seq : Sequence} {part : Bytes}

theorem Follows.ne_nil (follows : seq.Follows part) : part ≠ [] := by
  cases follows <;> simp

theorem Follows.decodeFrom_eq (follows : seq.Follows part) (rest : Bytes) :
    decodeFrom none (part ++ rest) = decodeFrom (some seq) rest := by
  induction follows generalizing rest with
  | @opened seq byte opened =>
    have beyond : 0x80 ≤ byte.toNat := by
      have cases := opened?_cases opened
      omega
    exact decodeFrom_lead beyond opened rest
  | continued _ accepted owed ih =>
    rw [List.append_assoc, ih, List.singleton_append, decodeFrom_continue accepted,
      if_neg (by omega)]
    rfl

theorem toNat_eq_ofNat {byte : UInt8} {value : Nat} (same : byte.toNat = value) :
    UInt8.ofNat value = byte := by
  rw [← same, UInt8.ofNat_toNat]

theorem accepts_iff (byte : Nat) :
    seq.accepts byte = true ↔ seq.low ≤ byte ∧ byte ≤ seq.high := by
  rw [accepts, Bool.and_eq_true, decide_eq_true_eq, decide_eq_true_eq]

/-- Some byte can follow. -/
theorem Follows.exists_accepted (follows : seq.Follows part) :
    ∃ byte : UInt8, seq.accepts byte.toNat = true := by
  cases follows with
  | opened opened =>
    have cases := opened?_cases opened
    refine ⟨UInt8.ofNat seq.low, ?_⟩
    rw [toNat_byte (by omega), accepts_iff]
    omega
  | continued => exact ⟨0x80, by simp [accepts_iff]⟩

theorem Follows.due_le (follows : seq.Follows part) : seq.due + part.length ≤ 4 := by
  induction follows with
  | opened opened =>
    have cases := opened?_cases opened
    rw [List.length_singleton]
    omega
  | continued _ _ owed ih =>
    rw [List.length_append, List.length_singleton, due_next]
    omega

/-- A sequence that is due one more byte is completed by it. -/
theorem Follows.completed (follows : seq.Follows part) {byte : UInt8}
    (accepted : seq.accepts byte.toNat = true) (final : seq.due ≤ 1) :
    ∃ char, utf8EncodeChar char = part ++ [byte] := by
  rw [accepts_iff] at accepted
  -- The bytes before the last one are one, two or three, and so the character has its length.
  cases follows with
  | @opened _ lead opened =>
    have cases := opened?_cases opened
    refine ⟨Char.ofNat (seq.bits * 64 + (byte.toNat - 0x80)), ?_⟩
    rw [encodeChar_two (by omega) (by omega) (by omega),
      toNat_eq_ofNat (by omega : lead.toNat = _), toNat_eq_ofNat (by omega : byte.toNat = _)]
    rfl
  | @continued first _ middle before second owed =>
    rw [accepts_iff] at second
    simp only [due_next, low_next, high_next] at accepted final
    cases before with
    | @opened _ lead opened =>
      have cases := opened?_cases opened
      refine ⟨Char.ofNat ((first.bits * 64 + (middle.toNat - 0x80)) * 64 + (byte.toNat - 0x80)),
        ?_⟩
      rw [encodeChar_three (by omega) (by omega) (by omega) (by omega) (by omega),
        toNat_eq_ofNat (by omega : lead.toNat = _), toNat_eq_ofNat (by omega : middle.toNat = _),
        toNat_eq_ofNat (by omega : byte.toNat = _)]
      rfl
    | @continued start _ third earlier accepts more =>
      rw [accepts_iff] at accepts
      simp only [due_next, low_next, high_next] at second owed final
      cases earlier with
      | @opened _ lead opened =>
        have cases := opened?_cases opened
        refine ⟨Char.ofNat (((start.bits * 64 + (third.toNat - 0x80)) * 64 +
          (middle.toNat - 0x80)) * 64 + (byte.toNat - 0x80)), ?_⟩
        rw [encodeChar_four (by omega) (by omega) (by omega) (by omega) (by omega),
          toNat_eq_ofNat (by omega : lead.toNat = _), toNat_eq_ofNat (by omega : third.toNat = _),
          toNat_eq_ofNat (by omega : middle.toNat = _), toNat_eq_ofNat (by omega : byte.toNat = _)]
        rfl
      | continued deeper =>
        -- No lead byte opens a sequence of five bytes.
        have bound := deeper.due_le
        have some := List.length_pos_iff.mpr deeper.ne_nil
        simp only [due_next] at owed
        omega

/-- The bytes of a sequence under way are the beginning of a character. -/
theorem Follows.isBegun {seq : Sequence} {part : Bytes} (follows : seq.Follows part) :
    IsBegun part := by
  obtain ⟨byte, accepted⟩ := follows.exists_accepted
  by_cases final : seq.due ≤ 1
  · obtain ⟨char, whole⟩ := follows.completed accepted final
    exact ⟨follows.ne_nil, char, [byte], by simp, whole⟩
  · have owed : 1 < seq.due := by omega
    exact (follows.continued accepted owed).isBegun.of_append follows.ne_nil
termination_by seq.due
decreasing_by
  rw [due_next]
  omega

end Sequence

/-! ### Beginnings of characters -/

/-- After some bytes a sequence is under way, or the decoder has answered something. -/
theorem follows_or_answers {part : Bytes} (filled : part ≠ []) :
    (∃ seq : Sequence, seq.Follows part) ∨
      ∃ parts next, parts ≠ [] ∧ IsWideState next ∧
        ∀ rest, decodeFrom none (part ++ rest) = parts ++ decodeFrom next rest := by
  induction part using List.reverseRecOn with
  | nil => exact absurd rfl filled
  | append_singleton init byte ih =>
    by_cases first : init = []
    · subst first
      cases opened : Sequence.opened? byte.toNat with
      | some seq => exact .inl ⟨seq, .opened opened⟩
      | none =>
        refine .inr ⟨(openByte byte.toNat).1, (openByte byte.toNat).2, ?_,
          isWideState_openByte byte.toNat, fun rest => rfl⟩
        rw [openByte, opened]
        split <;> simp
    rcases ih first with ⟨seq, follows⟩ | ⟨parts, next, answered, wide, splits⟩
    · by_cases accepted : seq.accepts byte.toNat = true
      · by_cases owed : 1 < seq.due
        · exact .inl ⟨_, follows.continued accepted owed⟩
        -- The last byte completes a character.
        · refine .inr ⟨[some (Char.ofNat (seq.bits * 64 + (byte.toNat - 0x80)))], none, by simp,
            isWideState_none, fun rest => ?_⟩
          rw [List.append_assoc, follows.decodeFrom_eq, List.singleton_append,
            decodeFrom_continue accepted, if_pos (by omega)]
          rfl
      -- The last byte does not fit, so the sequence breaks off before it.
      · refine .inr ⟨none :: (openByte byte.toNat).1, (openByte byte.toNat).2, by simp,
          isWideState_openByte byte.toNat, fun rest => ?_⟩
        rw [List.append_assoc, follows.decodeFrom_eq]
        simp [decodeFrom, decodeByte, accepted]
    · refine .inr ⟨parts ++ (decodeByte next byte.toNat).1, (decodeByte next byte.toNat).2,
        by simp [answered], isWideState_decodeByte wide byte.toNat, fun rest => ?_⟩
      rw [List.append_assoc, splits, List.append_assoc]
      rfl

theorem decodeFrom_ne_nil {state : Option Sequence} (wide : IsWideState state) {bytes : Bytes}
    (filled : bytes ≠ []) : decodeFrom state bytes ≠ [] := by
  cases bytes using List.reverseRecOn with
  | nil => exact absurd rfl filled
  | append_singleton init last =>
    obtain ⟨parts, next, -, splits⟩ := decodeFrom_append wide init
    rw [splits]
    simp [decodeFrom_singleton_ne_nil]

/-- On the way through a character its sequence is under way. -/
theorem IsBegun.exists_follows {part : Bytes} (begun : IsBegun part) :
    ∃ seq : Sequence, seq.Follows part := by
  obtain ⟨filled, char, rest, left, whole⟩ := begun
  rcases follows_or_answers filled with under | ⟨parts, next, answered, wide, splits⟩
  · exact under
  · -- One character answers the bytes, but their beginning and the rest would have one each.
    have answers := decodeFrom_encodeChar char []
    have more := decodeFrom_ne_nil wide left
    rw [List.append_nil, whole, splits] at answers
    have counts := congrArg List.length answers
    rw [List.length_append] at counts
    change _ = 1 at counts
    have first := List.length_pos_iff.mpr answered
    have second := List.length_pos_iff.mpr more
    omega

/-! ### Invalid parts -/

theorem IsInvalid.decode_eq {part rest : Bytes} (invalid : IsInvalid part rest) :
    decode (part ++ rest) = none :: decode rest := by
  obtain ⟨unreadable, cut, longest⟩ := invalid
  by_cases begun : IsBegun part
  · obtain ⟨seq, follows⟩ := begun.exists_follows
    rw [decode, follows.decodeFrom_eq]
    cases rest with
    | nil => rfl
    | cons byte more =>
      -- A byte that is accepted would complete a character or begin more of one.
      have refused : seq.accepts byte.toNat = false := by
        rw [← Bool.not_eq_true]
        intro accepted
        by_cases owed : 1 < seq.due
        · have longer := longest (part ++ [byte]) (by simp)
            (follows.continued accepted owed).isBegun
          rw [List.length_append, List.length_singleton] at longer
          omega
        · obtain ⟨char, whole⟩ := follows.completed accepted (by omega)
          apply unreadable char
          rw [whole]
          exact ⟨more, by simp⟩
      simp [decodeFrom, decodeByte, refused, decode]
  · obtain ⟨byte, rfl⟩ := List.length_eq_one_iff.mp (cut.resolve_left begun)
    have beyond : ¬byte.toNat < 0x80 := by
      intro ascii
      apply unreadable (Char.ofNat byte.toNat)
      rw [encodeChar_one ascii, UInt8.ofNat_toNat]
      exact ⟨rest, rfl⟩
    have unopened : Sequence.opened? byte.toNat = none := by
      cases opened : Sequence.opened? byte.toNat with
      | none => rfl
      | some seq => exact absurd (Sequence.Follows.opened opened).isBegun begun
    simp [decode, decodeFrom, decodeByte, openByte, beyond, unopened]

/-- At the start of a byte string stands a character or an invalid part. -/
theorem readable_or_invalid {bytes : Bytes} (filled : bytes ≠ []) :
    (∃ char rest, bytes = utf8EncodeChar char ++ rest) ∨
      ∃ part rest, bytes = part ++ rest ∧ IsInvalid part rest := by
  classical
  by_cases readable : ∃ char, utf8EncodeChar char <+: bytes
  · obtain ⟨char, rest, split⟩ := readable
    exact .inl ⟨char, rest, split.symm⟩
  right
  -- The part is as long as the longest beginning of a character, and not empty.
  let length := Nat.findGreatest (fun count => IsBegun (bytes.take count)) bytes.length
  have greatest : ∀ longer, longer <+: bytes → IsBegun longer → longer.length ≤ length := by
    intro longer begins begun
    rw [List.prefix_iff_eq_take.mp begins] at begun
    exact Nat.le_findGreatest begins.length_le begun
  have unreadable (count : Nat) : ∀ char,
      ¬utf8EncodeChar char <+: bytes.take count ++ bytes.drop count := by
    rw [List.take_append_drop]
    simpa using readable
  by_cases stray : length = 0
  · refine ⟨bytes.take 1, bytes.drop 1, (List.take_append_drop 1 bytes).symm, unreadable 1, .inr ?_,
      ?_⟩
    · rw [List.length_take]
      have left := List.length_pos_iff.mpr filled
      omega
    · intro longer begins begun
      rw [List.take_append_drop] at begins
      have none := greatest longer begins begun
      omega
  · have bound : length ≤ bytes.length := Nat.findGreatest_le bytes.length
    have begun : IsBegun (bytes.take length) := Nat.findGreatest_of_ne_zero rfl stray
    refine ⟨bytes.take length, bytes.drop length, (List.take_append_drop length bytes).symm,
      unreadable length, .inl begun, ?_⟩
    intro longer begins isBegun
    rw [List.take_append_drop] at begins
    rw [List.length_take, Nat.min_eq_left bound]
    exact greatest longer begins isBegun

/-! ### Lossy reading -/

theorem encodeChar_ne_nil (char : Char) : utf8EncodeChar char ≠ [] := by
  intro empty
  have answers := decodeFrom_encodeChar char []
  simp [empty, decodeFrom] at answers

theorem IsInvalid.ne_nil {part rest : Bytes} (invalid : IsInvalid part rest) : part ≠ [] := by
  rcases invalid.cut with begun | single
  · exact begun.some
  · exact List.ne_nil_of_length_pos (by omega)

theorem isLossy_lossyChars (bytes : Bytes) : IsLossy bytes (lossyChars bytes) := by
  by_cases none : bytes = []
  · rw [none]
    exact .done
  rcases readable_or_invalid none with ⟨char, rest, split⟩ | ⟨part, rest, split, invalid⟩
  · have left := List.length_pos_iff.mpr (encodeChar_ne_nil char)
    have reads : lossyChars bytes = char :: lossyChars rest := by
      rw [lossyChars, split, decode, decodeFrom_encodeChar]
      rfl
    rw [reads, split]
    exact .char char (isLossy_lossyChars rest)
  · have left := List.length_pos_iff.mpr invalid.ne_nil
    have reads : lossyChars bytes = '\uFFFD' :: lossyChars rest := by
      rw [lossyChars, split, invalid.decode_eq]
      rfl
    rw [reads, split]
    exact .invalid invalid (isLossy_lossyChars rest)
termination_by bytes.length
decreasing_by
  · rw [split, List.length_append]
    omega
  · rw [split, List.length_append]
    omega

/-- Lossy reading gives what its description says, and nothing else fits the description. -/
theorem isLossy_iff (bytes : Bytes) (text : List Char) :
    IsLossy bytes text ↔ text = lossyChars bytes := by
  constructor
  · intro lossy
    induction lossy with
    | done => rfl
    | char char _ ih =>
      rw [lossyChars, decode, decodeFrom_encodeChar, ih]
      rfl
    | invalid invalid _ ih =>
      rw [lossyChars, invalid.decode_eq, ih]
      rfl
  · rintro rfl
    exact isLossy_lossyChars bytes

/-! ### Strict reading -/

theorem strictChars?_encode (text : String) : strictChars? (encode text) = some text.toList := by
  rw [strictChars?, decode_encode]
  induction text.toList with
  | nil => rfl
  | cons char rest ih =>
    rw [List.map_cons, List.mapM_cons, ih]
    rfl

theorem strictChars?_encodeChar (char : Char) (rest : Bytes) :
    strictChars? (utf8EncodeChar char ++ rest) = (strictChars? rest).map (char :: ·) := by
  simp only [strictChars?, decode, decodeFrom_encodeChar, List.mapM_cons]
  cases (decodeFrom none rest).mapM id <;> rfl

theorem IsInvalid.strictChars?_eq_none {part rest : Bytes} (invalid : IsInvalid part rest) :
    strictChars? (part ++ rest) = none := by
  rw [strictChars?, invalid.decode_eq, List.mapM_cons]
  rfl

/-- Strict reading takes nothing for a text but what encodes one. -/
theorem eq_encode_of_strictChars? {bytes : Bytes} {chars : List Char}
    (read : strictChars? bytes = some chars) : bytes = encode (String.ofList chars) := by
  by_cases none : bytes = []
  · subst none
    cases read
    simp [encode_eq_flatMap]
  rcases readable_or_invalid none with ⟨char, rest, split⟩ | ⟨part, rest, split, invalid⟩
  · have left := List.length_pos_iff.mpr (encodeChar_ne_nil char)
    rw [split, strictChars?_encodeChar, Option.map_eq_some_iff] at read
    obtain ⟨more, read, rfl⟩ := read
    have same := eq_encode_of_strictChars? read
    rw [split, encode_eq_flatMap, String.toList_ofList, List.flatMap_cons]
    rw [encode_eq_flatMap, String.toList_ofList] at same
    rw [← same]
  · rw [split, invalid.strictChars?_eq_none] at read
    cases read
termination_by bytes.length
decreasing_by
  rw [split, List.length_append]
  omega

theorem strictChars?_eq_none_iff (bytes : Bytes) :
    strictChars? bytes = none ↔ ¬∃ text, bytes = encode text := by
  constructor
  · rintro refused ⟨text, rfl⟩
    rw [strictChars?_encode] at refused
    cases refused
  · intro unwritten
    cases read : strictChars? bytes with
    | none => rfl
    | some chars => exact absurd ⟨_, eq_encode_of_strictChars? read⟩ unwritten

end BoardBench
