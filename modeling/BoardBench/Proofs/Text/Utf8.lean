import BoardBench.Text.Utf8
import Mathlib.Data.List.Basic
import Mathlib.Data.List.Induction

/-!
# Decoding around ASCII

An ASCII byte stands for its own character wherever it appears, and no other byte ever yields that
character. So a byte string can be cut at an ASCII byte before or after it is decoded. What was
encoded decodes to itself.
-/
namespace BoardBench

theorem toNat_ofNat_of_pos {code : Nat} (positive : 0 < (Char.ofNat code).toNat) :
    (Char.ofNat code).toNat = code := by
  by_cases valid : code.isValidChar
  · rw [Char.ofNat, dif_pos valid]
    rfl
  · simp [Char.ofNat, valid, Char.toNat] at positive

/-! ### Sequences under way -/

/-- A sequence whose next byte and whose character lie beyond ASCII. -/
structure Sequence.IsWide (seq : Sequence) : Prop where
  owed : 1 ≤ seq.due
  tail : 0x80 ≤ seq.low
  early : 2 ≤ seq.bits * 64 + (seq.low - 0x80)
  last : seq.due = 1 → 0x80 ≤ seq.bits * 64 + (seq.low - 0x80)

/-- What is under way between two bytes, if anything is. -/
def IsWideState (state : Option Sequence) : Prop :=
  ∀ seq ∈ state, seq.IsWide

theorem isWideState_none : IsWideState none := by
  intro seq member
  cases member

theorem isWide_of_opened {byte : Nat} {seq : Sequence} (opened : Sequence.opened? byte = some seq) :
    seq.IsWide := by
  unfold Sequence.opened? at opened
  repeat' split at opened
  all_goals
    simp only [Option.some.injEq, reduceCtorEq] at opened
  all_goals
    subst opened
    constructor <;> simp only <;> omega

theorem isWideState_openByte (byte : Nat) : IsWideState (openByte byte).2 := by
  unfold openByte
  split
  · exact isWideState_none
  · split
    next seq opened =>
      intro other same
      cases same
      exact isWide_of_opened opened
    next => exact isWideState_none

theorem isWideState_decodeByte {state : Option Sequence} (wide : IsWideState state) (byte : Nat) :
    IsWideState (decodeByte state byte).2 := by
  cases state with
  | none => exact isWideState_openByte byte
  | some seq =>
    have ⟨owed, tail, early, last⟩ := wide seq rfl
    simp only [decodeByte]
    split
    next accepted =>
      simp only [Sequence.accepts, Bool.and_eq_true, decide_eq_true_eq] at accepted
      split
      next => exact isWideState_none
      next more =>
        intro other same
        simp only [Option.mem_some_iff] at same
        subst same
        constructor <;> simp only <;> omega
    next => exact isWideState_openByte byte

/-! ### Where ASCII characters come from -/

/-- A character of ASCII other than NUL. -/
def IsAscii (char : Char) : Prop :=
  0 < char.toNat ∧ char.toNat < 0x80

instance (char : Char) : Decidable (IsAscii char) :=
  inferInstanceAs (Decidable (_ ∧ _))

theorem byte_of_mem_openByte {byte : Nat} {char : Char} (ascii : IsAscii char)
    (member : some char ∈ (openByte byte).1) : byte = char.toNat := by
  unfold openByte at member
  split at member
  next =>
    simp only [List.mem_singleton, Option.some.injEq] at member
    subst member
    exact (toNat_ofNat_of_pos ascii.1).symm
  next => split at member <;> simp at member

theorem byte_of_mem_decodeByte {state : Option Sequence} (wide : IsWideState state) {byte : Nat}
    {char : Char} (ascii : IsAscii char) (member : some char ∈ (decodeByte state byte).1) :
    byte = char.toNat := by
  cases state with
  | none => exact byte_of_mem_openByte ascii member
  | some seq =>
    have ⟨owed, tail, early, last⟩ := wide seq rfl
    simp only [decodeByte] at member
    split at member
    next accepted =>
      -- The sequence would be complete, and its character lies beyond ASCII.
      simp only [Sequence.accepts, Bool.and_eq_true, decide_eq_true_eq] at accepted
      split at member
      next complete =>
        simp only [List.mem_singleton, Option.some.injEq] at member
        rw [member] at ascii
        have code := toNat_ofNat_of_pos ascii.1
        have below := ascii.2
        have least := last (by omega)
        omega
      next => simp at member
    next => exact byte_of_mem_openByte ascii (by simpa using member)

theorem byte_of_mem_decodeFrom {state : Option Sequence} (wide : IsWideState state) {bytes : Bytes}
    {char : Char} (ascii : IsAscii char) (member : some char ∈ decodeFrom state bytes) :
    ∃ byte ∈ bytes, byte.toNat = char.toNat := by
  induction bytes generalizing state with
  | nil => rw [decodeFrom] at member; split at member <;> simp at member
  | cons byte rest ih =>
    simp only [decodeFrom, List.mem_append] at member
    rcases member with here | later
    · exact ⟨byte, by simp, byte_of_mem_decodeByte wide ascii here⟩
    · obtain ⟨other, among, same⟩ := ih (isWideState_decodeByte wide _) later
      exact ⟨other, by simp [among], same⟩

/-! ### Cutting at an ASCII byte -/

/-- Decoding a beginning leaves a state from which the rest is decoded. -/
theorem decodeFrom_append {state : Option Sequence} (wide : IsWideState state) (before : Bytes) :
    ∃ parts next, IsWideState next ∧
      ∀ after, decodeFrom state (before ++ after) = parts ++ decodeFrom next after := by
  induction before generalizing state with
  | nil => exact ⟨[], state, wide, fun _ => rfl⟩
  | cons byte rest ih =>
    obtain ⟨parts, next, sound, splits⟩ := ih (isWideState_decodeByte wide byte.toNat)
    refine ⟨(decodeByte state byte.toNat).1 ++ parts, next, sound, fun after => ?_⟩
    simp only [List.cons_append, decodeFrom, splits, List.append_assoc]

/-- An ASCII byte ends what is under way and stands for itself. -/
theorem decodeFrom_ascii {state : Option Sequence} (wide : IsWideState state) {byte : UInt8}
    (ascii : byte.toNat < 0x80) (after : Bytes) :
    decodeFrom state (byte :: after) =
      decodeFrom state [] ++ some (Char.ofNat byte.toNat) :: decode after := by
  have opens : openByte byte.toNat = ([some (Char.ofNat byte.toNat)], none) := by
    simp [openByte, ascii]
  cases state with
  | none => simp [decodeFrom, decodeByte, opens, decode]
  | some seq =>
    -- No continuation byte is in ASCII, so the sequence breaks off here.
    have refused : seq.accepts byte.toNat = false := by
      have tail := (wide seq rfl).tail
      simp only [Sequence.accepts, Bool.and_eq_false_iff, decide_eq_false_iff_not]
      omega
    simp [decodeFrom, decodeByte, refused, opens, decode]

theorem decode_cut {byte : UInt8} (ascii : byte.toNat < 0x80) (before after : Bytes) :
    decode (before ++ byte :: after) =
      decode before ++ some (Char.ofNat byte.toNat) :: decode after := by
  obtain ⟨parts, next, wide, splits⟩ := decodeFrom_append isWideState_none before
  have whole := splits []
  rw [List.append_nil] at whole
  rw [decode, decode, splits, whole, decodeFrom_ascii wide ascii, List.append_assoc]

theorem lossyChars_cut {byte : UInt8} (ascii : byte.toNat < 0x80) (before after : Bytes) :
    lossyChars (before ++ byte :: after) =
      lossyChars before ++ Char.ofNat byte.toNat :: lossyChars after := by
  simp [lossyChars, decode_cut ascii]

theorem byte_of_mem_lossyChars {bytes : Bytes} {char : Char} (ascii : IsAscii char)
    (member : char ∈ lossyChars bytes) : ∃ byte ∈ bytes, byte.toNat = char.toNat := by
  obtain ⟨part, among, same⟩ := List.mem_map.mp member
  cases part with
  | some found =>
    rw [Option.getD_some] at same
    exact byte_of_mem_decodeFrom isWideState_none ascii (same ▸ among)
  | none =>
    -- The replacement character is not in ASCII.
    have below := ascii.2
    rw [← same] at below
    exact absurd below (by decide)

theorem decodeFrom_singleton_ne_nil (state : Option Sequence) (byte : UInt8) :
    decodeFrom state [byte] ≠ [] := by
  have opens : (openByte byte.toNat).1 ≠ [] ∨ (openByte byte.toNat).2.isSome = true := by
    unfold openByte
    split
    · simp
    · split <;> simp
  cases state with
  | none => rcases opens with here | here <;> simp [decodeFrom, decodeByte, here]
  | some seq =>
    simp only [decodeFrom, decodeByte]
    split
    · split <;> simp
    · simp

/-- A text that ends in an ASCII character was read from bytes that end in it. -/
theorem last_byte_of_lossyChars {bytes : Bytes} {char : Char} (ascii : IsAscii char)
    (final : (lossyChars bytes).getLast? = some char) :
    ∃ byte ∈ bytes.getLast?, byte.toNat = char.toNat := by
  cases bytes using List.reverseRecOn with
  | nil => simp [lossyChars, decode, decodeFrom] at final
  | append_singleton init byte =>
    -- The last byte yields some part, so the last part comes from it.
    obtain ⟨parts, next, wide, splits⟩ := decodeFrom_append isWideState_none init
    have tail := decodeFrom_singleton_ne_nil next byte
    rw [lossyChars, decode, splits, List.getLast?_map, List.getLast?_append_of_ne_nil _ tail,
      Option.map_eq_some_iff] at final
    obtain ⟨part, ends, same⟩ := final
    refine ⟨byte, by simp, ?_⟩
    cases part with
    | none =>
      have below := ascii.2
      rw [← same] at below
      exact absurd below (by decide)
    | some found =>
      rw [Option.getD_some] at same
      obtain ⟨other, among, value⟩ :=
        byte_of_mem_decodeFrom wide ascii (same ▸ List.mem_of_getLast? ends)
      rw [List.mem_singleton] at among
      exact among ▸ value

/-! ### Reading back what was encoded -/

/-- A continuation byte is read into the sequence under way. -/
theorem decodeFrom_continue {seq : Sequence} {byte : UInt8}
    (accepted : seq.accepts byte.toNat = true) (rest : Bytes) :
    decodeFrom (some seq) (byte :: rest) =
      if seq.due ≤ 1 then
        some (Char.ofNat (seq.bits * 64 + (byte.toNat - 0x80))) :: decodeFrom none rest
      else
        decodeFrom (some { bits := seq.bits * 64 + (byte.toNat - 0x80), due := seq.due - 1 })
          rest := by
  simp only [decodeFrom, decodeByte, accepted, if_true]
  split <;> simp

theorem decodeFrom_lead {byte : UInt8} {seq : Sequence} (beyond : 0x80 ≤ byte.toNat)
    (opened : Sequence.opened? byte.toNat = some seq) (rest : Bytes) :
    decodeFrom none (byte :: rest) = decodeFrom (some seq) rest := by
  simp [decodeFrom, decodeByte, openByte, Nat.not_lt.mpr beyond, opened]

theorem toNat_byte {value : Nat} (small : value < 256) : (UInt8.ofNat value).toNat = value :=
  UInt8.toNat_ofNat_of_lt small

theorem accepts_tail {bits due digit : Nat} (small : digit < 64) :
    ({ bits, due } : Sequence).accepts (digit + 0x80) = true := by
  simp only [Sequence.accepts, Bool.and_eq_true, decide_eq_true_eq]
  omega

theorem accepts_tail_byte (bits due code : Nat) :
    ({ bits, due } : Sequence).accepts (UInt8.ofNat (code % 0x40 + 0x80)).toNat = true := by
  rw [toNat_byte (by omega)]
  exact accepts_tail (by omega)

theorem opened_two (high : Nat) (long : 2 ≤ high) (small : high < 32) :
    Sequence.opened? (high + 0xC0) = some { bits := high, due := 1 } := by
  rw [Sequence.opened?, if_pos (by omega), Nat.add_sub_cancel]

/-- The first two bytes of a character of three bytes. -/
theorem opened_three (high second : Nat) (small : high < 16) (digit : second < 64)
    (long : 0x20 ≤ high * 64 + second)
    (scalar : high * 64 + second < 0x360 ∨ 0x37F < high * 64 + second) :
    ∃ seq, Sequence.opened? (high + 0xE0) = some seq ∧ seq.bits = high ∧ seq.due = 2 ∧
      seq.accepts (second + 0x80) = true := by
  unfold Sequence.opened?
  rw [if_neg (by omega)]
  by_cases least : high = 0
  · refine ⟨_, by rw [if_pos (by omega)], least.symm, rfl, ?_⟩
    simp only [Sequence.accepts, Bool.and_eq_true, decide_eq_true_eq]
    omega
  rw [if_neg (by omega)]
  -- The second byte is bounded from above, or surrogates would be encoded.
  by_cases surrogates : high = 13
  · refine ⟨_, by rw [if_pos (by omega)], surrogates.symm, rfl, ?_⟩
    simp only [Sequence.accepts, Bool.and_eq_true, decide_eq_true_eq]
    omega
  · refine ⟨_, by rw [if_neg (by omega), if_pos (by omega)], by simp, rfl, ?_⟩
    exact accepts_tail digit

/-- The first two bytes of a character of four bytes. -/
theorem opened_four (high second : Nat) (small : high < 5) (digit : second < 64)
    (long : 0x10 ≤ high * 64 + second) (scalar : high * 64 + second < 0x110) :
    ∃ seq, Sequence.opened? (high + 0xF0) = some seq ∧ seq.bits = high ∧ seq.due = 3 ∧
      seq.accepts (second + 0x80) = true := by
  unfold Sequence.opened?
  rw [if_neg (by omega), if_neg (by omega), if_neg (by omega), if_neg (by omega)]
  by_cases least : high = 0
  · refine ⟨_, by rw [if_pos (by omega)], least.symm, rfl, ?_⟩
    simp only [Sequence.accepts, Bool.and_eq_true, decide_eq_true_eq]
    omega
  rw [if_neg (by omega)]
  -- The second byte is bounded from above, or the code would be beyond the last character.
  by_cases greatest : high = 4
  · refine ⟨_, by rw [if_pos (by omega)], greatest.symm, rfl, ?_⟩
    simp only [Sequence.accepts, Bool.and_eq_true, decide_eq_true_eq]
    omega
  · refine ⟨_, by rw [if_neg (by omega), if_pos (by omega)], by simp, rfl, ?_⟩
    exact accepts_tail digit

theorem decodeFrom_encodeChar (char : Char) (rest : Bytes) :
    decodeFrom none (String.utf8EncodeChar char ++ rest) = some char :: decodeFrom none rest := by
  have valid : char.val.toNat < 0xD800 ∨ 0xDFFF < char.val.toNat ∧ char.val.toNat < 0x110000 :=
    char.valid
  have same : Char.ofNat char.val.toNat = char := Char.ofNat_toNat char
  unfold String.utf8EncodeChar
  generalize char.val.toNat = code at valid same
  simp only
  -- One case for each number of bytes. In each of them the digits of the code in base 64 are put
  -- together again, and the bytes are the ones that the decoder expects after the leading one.
  split
  next =>
    rw [List.singleton_append, decodeFrom_ascii isWideState_none, toNat_byte (by omega), same]
    · rfl
    · rw [toNat_byte (by omega)]
      omega
  split
  next =>
    have lead := opened_two (code / 64 % 0x20) (by omega) (by omega)
    have value : code / 64 % 0x20 * 64 + (code % 0x40 + 0x80 - 0x80) = code := by omega
    rw [← toNat_byte (by omega : code / 64 % 0x20 + 0xC0 < 256)] at lead
    simp only [List.cons_append, List.nil_append]
    rw [decodeFrom_lead _ lead, decodeFrom_continue (accepts_tail_byte _ _ _), if_pos (by simp),
      toNat_byte (by omega), value, same]
    rw [toNat_byte (by omega)]
    omega
  split
  next =>
    obtain ⟨seq, lead, bits, due, second⟩ := opened_three (code / 4096 % 0x10)
      (code / 64 % 0x40) (by omega) (by omega) (by omega) (by omega)
    have value : (code / 4096 % 0x10 * 64 + (code / 64 % 0x40 + 0x80 - 0x80)) * 64 +
        (code % 0x40 + 0x80 - 0x80) = code := by omega
    rw [← toNat_byte (by omega : code / 4096 % 0x10 + 0xE0 < 256)] at lead
    rw [← toNat_byte (by omega : code / 64 % 0x40 + 0x80 < 256)] at second
    simp only [List.cons_append, List.nil_append]
    rw [decodeFrom_lead _ lead, decodeFrom_continue second, if_neg (by omega),
      decodeFrom_continue (accepts_tail_byte _ _ _), if_pos (by simp [due]),
      toNat_byte (by omega), toNat_byte (by omega), bits, value, same]
    rw [toNat_byte (by omega)]
    omega
  next =>
    obtain ⟨seq, lead, bits, due, second⟩ := opened_four (code / 262144 % 0x08)
      (code / 4096 % 0x40) (by omega) (by omega) (by omega) (by omega)
    have value : ((code / 262144 % 0x08 * 64 + (code / 4096 % 0x40 + 0x80 - 0x80)) * 64 +
        (code / 64 % 0x40 + 0x80 - 0x80)) * 64 + (code % 0x40 + 0x80 - 0x80) = code := by omega
    rw [← toNat_byte (by omega : code / 262144 % 0x08 + 0xF0 < 256)] at lead
    rw [← toNat_byte (by omega : code / 4096 % 0x40 + 0x80 < 256)] at second
    simp only [List.cons_append, List.nil_append]
    rw [decodeFrom_lead _ lead, decodeFrom_continue second, if_neg (by omega),
      decodeFrom_continue (accepts_tail_byte _ _ _), if_neg (by simp [due]),
      decodeFrom_continue (accepts_tail_byte _ _ _), if_pos (by simp [due]),
      toNat_byte (by omega), toNat_byte (by omega), toNat_byte (by omega), bits, value, same]
    rw [toNat_byte (by omega)]
    omega

/-! ### Encoded texts -/

private theorem toList_loop (bytes : ByteArray) (index : Nat) (done : Bytes) :
    ByteArray.toList.loop bytes index done = done.reverse ++ bytes.data.toList.drop index := by
  fun_induction ByteArray.toList.loop bytes index done with
  | case1 index done more ih =>
    have inside : index < bytes.data.toList.length := by simpa using more
    have here : bytes.get! index = bytes.data.toList[index] := by
      simp [ByteArray.get!, getElem!_pos bytes.data index (by simpa using inside)]
    rw [ih, here, List.drop_eq_getElem_cons inside]
    simp
  | case2 index done ended =>
    have past : bytes.data.toList.length ≤ index := by simpa using ended
    simp [List.drop_eq_nil_of_le past]

theorem encode_eq_flatMap (text : String) :
    encode text = text.toList.flatMap String.utf8EncodeChar := by
  have bytes : text.toUTF8 = (text.toList.flatMap String.utf8EncodeChar).toByteArray :=
    String.utf8Encode_toList.symm
  rw [encode, bytes, ByteArray.toList, toList_loop, List.toList_data_toByteArray]
  simp

theorem encode_append (left right : String) :
    encode (left ++ right) = encode left ++ encode right := by
  simp [encode_eq_flatMap]

theorem decode_encode (text : String) : decode (encode text) = text.toList.map some := by
  rw [encode_eq_flatMap, decode]
  induction text.toList with
  | nil => rfl
  | cons char rest ih => rw [List.flatMap_cons, decodeFrom_encodeChar, ih, List.map_cons]

@[simp]
theorem lossyChars_encode (text : String) : lossyChars (encode text) = text.toList := by
  simp [lossyChars, decode_encode, Function.comp_def]

@[simp]
theorem lossyText_encode (text : String) : lossyText (encode text) = text := by
  simp [lossyText]

/-- An ASCII byte of an encoded text is one of its characters. -/
theorem mem_of_mem_encode {text : String} {byte : UInt8} (ascii : byte.toNat < 0x80)
    (member : byte ∈ encode text) : Char.ofNat byte.toNat ∈ text.toList := by
  obtain ⟨before, after, split⟩ := List.append_of_mem member
  rw [← lossyChars_encode, split, lossyChars_cut ascii]
  simp

theorem last_char_of_encode {text : String} {byte : UInt8} (ascii : byte.toNat < 0x80)
    (final : (encode text).getLast? = some byte) :
    text.toList.getLast? = some (Char.ofNat byte.toNat) := by
  obtain ⟨init, split⟩ := List.getLast?_eq_some_iff.mp final
  rw [← lossyChars_encode, split, lossyChars_cut ascii]
  simp [lossyChars, decode, decodeFrom]

end BoardBench
