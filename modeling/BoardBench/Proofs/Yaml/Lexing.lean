import BoardBench.Proofs.Yaml.Scalars

/-!
# Lexing trees in flow style

Main result: a written tree is cut into its tokens, and so it is read back.

Proof strategy: inside a flow collection no key is due and no block is open, so each token is taken
without regard to the ones before it. The tokens of a tree are then taken one after the other, by
induction on the tree.
-/
namespace BoardBench.Yaml

/-! ### States of the lexer -/

namespace Lexer

/-- The lexer has taken some tokens and stands in front of a text, inside so many flow collections.
No block is open and no key is due. Behind the mark of a key, no other key can start. -/
structure Stands (tokens : List Token) (depth : Nat) (inKey : Bool) (text : List Char)
    (lexer : Lexer) : Prop where
  tokens : lexer.tokens.toList = tokens
  depth : lexer.flow.length = depth
  text : lexer.rest.map Glyph.char = text
  indent : lexer.indent = -1
  outer : lexer.outer = []
  candidate : lexer.candidate.any Candidate.required = false
  flow : ∀ candidate ∈ lexer.flow, candidate.any Candidate.required = false
  inKey : inKey = true → lexer.keyAllowed = false ∧ lexer.current = none

variable {tokens : List Token} {depth : Nat} {inKey : Bool} {text : List Char} {lexer : Lexer}

theorem fresh?_of_optional (now : Place) {candidate : Option Candidate}
    (optional : candidate.any Candidate.required = false) :
    ∃ kept, fresh? now candidate = some kept ∧ kept.any Candidate.required = false ∧
      (candidate = none → kept = none) := by
  cases candidate with
  | none => exact ⟨none, rfl, rfl, fun _ => rfl⟩
  | some candidate =>
    have free : candidate.required = false := optional
    simp only [fresh?, free, Bool.false_eq_true, if_false]
    split
    next => exact ⟨none, rfl, rfl, fun _ => rfl⟩
    next => exact ⟨some candidate, rfl, optional, nofun⟩

/-- No key is due at any level, so keys that are too far away are forgotten. -/
theorem Stands.dropStale (stands : lexer.Stands tokens depth inKey text) :
    ∃ next, lexer.dropStale = some next ∧ next.Stands tokens depth inKey text ∧
      next.rest = lexer.rest := by
  obtain ⟨kept, fresh, optional, stays⟩ := fresh?_of_optional lexer.place stands.candidate
  unfold Lexer.dropStale
  rw [fresh]
  cases levels : lexer.flow with
  | nil =>
    refine ⟨{ lexer with candidate := kept, flow := [] }, rfl, ?_, rfl⟩
    exact { stands with
      depth := levels ▸ stands.depth
      candidate := optional
      flow := List.forall_mem_nil _
      inKey := fun key => by
        obtain ⟨allowed, none⟩ := stands.inKey key
        simp only [current, levels] at none
        exact ⟨allowed, stays none⟩ }
  | cons inner more =>
    have all := List.forall_mem_cons.mp (levels ▸ stands.flow)
    obtain ⟨kept', fresh', optional', stays'⟩ := fresh?_of_optional lexer.place all.1
    refine ⟨{ lexer with candidate := kept, flow := kept' :: more }, ?_, ?_, rfl⟩
    · simp only [fresh']
      rfl
    · exact { stands with
        depth := (congrArg List.length levels).symm.trans stands.depth
        candidate := optional
        flow := List.forall_mem_cons.mpr ⟨optional', all.2⟩
        inKey := fun key => by
          obtain ⟨allowed, none⟩ := stands.inKey key
          simp only [current, levels] at none
          exact ⟨allowed, stays' none⟩ }

/-- No block is open, so none is closed. -/
theorem Stands.unroll (stands : lexer.Stands tokens depth inKey text) (column : Int) :
    lexer.unroll column = lexer := by
  unfold Lexer.unroll
  split
  next => rfl
  next =>
    rw [stands.outer, closeBlocks, ← stands.outer]

theorem Stands.optional (stands : lexer.Stands tokens depth inKey text) :
    lexer.current.any Candidate.required = false := by
  unfold current
  split
  next => exact stands.candidate
  next inner more levels => exact stands.flow inner (levels ▸ List.mem_cons_self)

@[simp] theorem rest_setCurrent (lexer : Lexer) (candidate : Option Candidate) :
    (lexer.setCurrent candidate).rest = lexer.rest := by
  unfold setCurrent
  split <;> rfl

@[simp] theorem keyAllowed_setCurrent (lexer : Lexer) (candidate : Option Candidate) :
    (lexer.setCurrent candidate).keyAllowed = lexer.keyAllowed := by
  unfold setCurrent
  split <;> rfl

@[simp] theorem current_setCurrent (lexer : Lexer) (candidate : Option Candidate) :
    (lexer.setCurrent candidate).current = candidate := by
  unfold setCurrent current
  cases lexer.flow <;> rfl

theorem Stands.setCurrent (stands : lexer.Stands tokens depth inKey text)
    {candidate : Option Candidate} (optional : candidate.any Candidate.required = false)
    (still : inKey = true → candidate = none) :
    (lexer.setCurrent candidate).Stands tokens depth inKey text := by
  have named : inKey = true → (lexer.setCurrent candidate).keyAllowed = false ∧
      (lexer.setCurrent candidate).current = none := by
    intro key
    simpa using ⟨(stands.inKey key).1, still key⟩
  cases levels : lexer.flow with
  | nil =>
    have outside : lexer.setCurrent candidate = { lexer with candidate } := by
      simp only [Lexer.setCurrent, levels]
    rw [outside] at named ⊢
    exact { stands with candidate := optional, inKey := named }
  | cons inner more =>
    have inside : lexer.setCurrent candidate = { lexer with flow := candidate :: more } := by
      simp only [Lexer.setCurrent, levels]
    rw [inside] at named ⊢
    have all := List.forall_mem_cons.mp (levels ▸ stands.flow)
    exact { stands with
      depth := (congrArg List.length levels).symm.trans stands.depth
      flow := List.forall_mem_cons.mpr ⟨optional, all.2⟩
      inKey := named }

theorem Stands.dropCandidate (stands : lexer.Stands tokens depth inKey text) :
    ∃ next, lexer.dropCandidate = some next ∧ next.Stands tokens depth inKey text ∧
      next.rest = lexer.rest ∧ next.current = none := by
  refine ⟨lexer.setCurrent none, ?_, stands.setCurrent rfl fun _ => rfl, by simp, by simp⟩
  rw [Lexer.dropCandidate, stands.optional]
  rfl

theorem Stands.saveCandidate (stands : lexer.Stands tokens depth inKey text) :
    ∃ next, lexer.saveCandidate = some next ∧ next.Stands tokens depth inKey text ∧
      next.rest = lexer.rest := by
  unfold Lexer.saveCandidate
  split
  next allowed =>
    obtain ⟨dropped, found, stands', rest, -⟩ := stands.dropCandidate
    -- The indent stands left of all columns as no block is open, so no key is due here.
    have free : (lexer.indent == (lexer.place.column : Int)) = false := by
      rw [stands.indent, beq_eq_false_iff_ne]
      omega
    -- Behind the mark of a key no other one may start, so this is not such a place.
    have unnamed : inKey = false := by
      rw [← Bool.not_eq_true]
      intro key
      rw [(stands.inKey key).1] at allowed
      cases allowed
    simp only [free, Bool.and_false, found]
    exact ⟨_, rfl, stands'.setCurrent rfl (by simp [unnamed]), by simp [rest]⟩
  next => exact ⟨lexer, rfl, stands, rfl⟩

/-! ### Taking tokens -/

/-- A lexer of the first kind runs as one of the second kind does, and has glyphs enough. -/
def Leads (before after : Lexer → Prop) : Prop :=
  ∀ lexer, before lexer → ∀ fuel, lexer.rest.length < fuel →
    ∃ next less, after next ∧ next.rest.length < less ∧ run fuel lexer = run less next

theorem Leads.refl (before : Lexer → Prop) : Leads before before :=
  fun lexer stands fuel enough => ⟨lexer, fuel, stands, enough, rfl⟩

theorem Leads.trans {before between after : Lexer → Prop} (first : Leads before between)
    (second : Leads between after) : Leads before after := by
  intro lexer stands fuel enough
  obtain ⟨middle, less, stands, enough, same⟩ := first lexer stands fuel enough
  obtain ⟨last, least, stands, enough, same'⟩ := second middle stands less enough
  exact ⟨last, least, stands, enough, same.trans same'⟩

theorem skip_of_isShown {glyph : Glyph} (shown : isShown glyph.char = true)
    (visible : glyph.char ≠ '#') (inFlow keyAllowed : Bool) (rest : List Glyph) :
    skip inFlow keyAllowed false (glyph :: rest) = (keyAllowed, glyph :: rest) := by
  have other (char : Char) (hidden : isShown char = false) : glyph.is char = false :=
    Glyph.is_eq_false (ne_of_isShown shown hidden)
  simp only [skip, Glyph.isBreak_of_isShown shown, other byteOrderMark (by decide),
    other ' ' (by decide), other '\t' (by decide), Glyph.is_eq_false visible, Bool.false_eq_true,
    Bool.and_false, Bool.false_and, Bool.or_self, if_false]

/-- If the next character is shown then a token is taken that starts with it. -/
theorem leads_of_fetch {char : Char} {after : Lexer → Prop} (shown : isShown char = true)
    (visible : char ≠ '#')
    (takes : ∀ (lexer : Lexer) (glyph : Glyph) (rest : List Glyph),
      lexer.Stands tokens depth inKey (char :: text) → lexer.rest = glyph :: rest →
      glyph.char = char → rest.map Glyph.char = text →
      ∃ next, lexer.fetch glyph rest = some next ∧ after next ∧ next.rest.length ≤ rest.length) :
    Leads (Stands tokens depth inKey (char :: text)) after := by
  intro lexer stands fuel enough
  obtain ⟨glyph, rest, next, isChar, spelled⟩ := List.map_eq_cons_iff.mp stands.text
  obtain ⟨fresh, found, stands', same⟩ := stands.dropStale
  obtain ⟨taken, fetched, done, shorter⟩ :=
    takes fresh glyph rest stands' (same.trans next) isChar spelled
  rw [next, List.length_cons] at enough
  obtain ⟨fuel, rfl⟩ : ∃ less, fuel = less + 1 := ⟨fuel - 1, by omega⟩
  refine ⟨taken, fuel, done, by omega, ?_⟩
  have skipped : skip lexer.inFlow lexer.keyAllowed false lexer.rest =
      (lexer.keyAllowed, lexer.rest) := by
    rw [next]
    exact skip_of_isShown (isChar ▸ shown) (isChar ▸ visible) _ _ _
  -- Nothing is skipped, no key that was due is lost, and no block is closed: a step is its fetch.
  rw [run, skipped]
  change (lexer.dropStale >>= _) = _
  rw [found]
  simp only [bind, Option.bind_some, stands'.unroll, same.trans next, fetched]

/-! ### The tokens of flow collections -/

theorem Stands.take (stands : lexer.Stands tokens depth inKey text) {token : Token}
    {rest : List Glyph} {more : List Char} {keyAllowed inKey' : Bool}
    (spelled : rest.map Glyph.char = more)
    (named : inKey' = true → keyAllowed = false ∧ lexer.current = none) :
    (lexer.take token rest keyAllowed).Stands (tokens ++ [token]) depth inKey' more :=
  { stands with
    tokens := by rw [Lexer.take, Lexer.emit, Array.toList_push, stands.tokens]
    text := spelled
    inKey := named }

section Fetch

variable {glyph : Glyph} (rest : List Glyph)

theorem fetch_sequenceStart (isChar : glyph.char = '[') :
    lexer.fetch glyph rest = lexer.fetchFlowStart .flowSequenceStart rest := by
  simp [fetch, Glyph.is, isChar, isLineMark_of_ne]

theorem fetch_mappingStart (isChar : glyph.char = '\x7b') :
    lexer.fetch glyph rest = lexer.fetchFlowStart .flowMappingStart rest := by
  simp [fetch, Glyph.is, isChar, isLineMark_of_ne]

theorem fetch_sequenceEnd (isChar : glyph.char = ']') :
    lexer.fetch glyph rest = lexer.fetchFlowEnd .flowSequenceEnd rest := by
  simp [fetch, Glyph.is, isChar, isLineMark_of_ne]

theorem fetch_mappingEnd (isChar : glyph.char = '\x7d') :
    lexer.fetch glyph rest = lexer.fetchFlowEnd .flowMappingEnd rest := by
  simp [fetch, Glyph.is, isChar, isLineMark_of_ne]

theorem fetch_flowEntry (isChar : glyph.char = ',') :
    lexer.fetch glyph rest = lexer.fetchFlowEntry rest := by
  simp [fetch, Glyph.is, isChar, isLineMark_of_ne]

theorem fetch_key (isChar : glyph.char = '?') (inside : lexer.inFlow = true) :
    lexer.fetch glyph rest = lexer.fetchKey rest := by
  simp [fetch, Glyph.is, isChar, isLineMark_of_ne, standsAlone, inside]

theorem fetch_value (isChar : glyph.char = ':') (inside : lexer.inFlow = true) :
    lexer.fetch glyph rest = lexer.fetchValue rest := by
  simp [fetch, Glyph.is, isChar, isLineMark_of_ne, standsAlone, inside]

theorem fetch_quoted (isChar : glyph.char = doubleQuote) :
    lexer.fetch glyph rest =
      lexer.fetchNode ((doubleQuoted [] Gap.none .outside rest).map fun found =>
        (.scalar found.text .doubleQuoted, found.rest)) := by
  simp [fetch, Glyph.is, isChar, isLineMark_of_ne, standsAlone, doubleQuote, singleQuote]

theorem fetch_plain (letter : glyph.char.isAlphanum = true) :
    lexer.fetch glyph rest = lexer.fetchPlain := by
  have apart (mark : Char) (isMark : mark.isAlphanum = false) : glyph.char ≠ mark :=
    ne_of_isAlphanum letter isMark
  have other (mark : Char) (isMark : mark.isAlphanum = false) : glyph.is mark = false :=
    Glyph.is_eq_false (apart mark isMark)
  have shown := isShown_of_isAlphanum letter
  have ordinary : isIndicator glyph = false := by
    have marks : "-?:,[]\x7b\x7d#&*!|>%@".toList.contains glyph.char = false := by
      rw [List.contains_eq_mem, decide_eq_false_iff_not]
      intro among
      have none : "-?:,[]\x7b\x7d#&*!|>%@".toList.all (fun mark => !mark.isAlphanum) = true := by
        decide
      exact apart glyph.char (by simpa using List.all_eq_true.mp none _ among) rfl
    have notTick : (glyph.char.toNat == 96) = false := by
      rw [beq_eq_false_iff_ne]
      intro tick
      exact apart (Char.ofNat 96) (by decide) (by rw [← tick, Char.ofNat_toNat])
    rw [isIndicator, marks, other singleQuote (by decide), other doubleQuote (by decide), notTick]
    rfl
  have starts : startsPlain lexer.inFlow (glyph :: rest) = true := by
    simp only [startsPlain, atGap, Glyph.isBlank_of_isShown shown, Glyph.isBreak_of_isShown shown,
      ordinary]
    rfl
  simp only [fetch, isLineMark_of_ne (apart '-' (by decide)),
    isLineMark_of_ne (apart '.' (by decide)), standsAlone, other '%' (by decide),
    other '[' (by decide), other '\x7b' (by decide), other ']' (by decide),
    other '\x7d' (by decide), other ',' (by decide), other '-' (by decide),
    other '?' (by decide), other ':' (by decide), other '*' (by decide), other '&' (by decide),
    other '!' (by decide), other '|' (by decide), other '>' (by decide),
    other singleQuote (by decide), other doubleQuote (by decide), starts, Bool.and_false,
    Bool.false_and, Bool.false_eq_true, if_false, if_true]

end Fetch

theorem leads_flowStart {char : Char} {token : Token} (shown : isShown char = true)
    (visible : char ≠ '#')
    (starts : ∀ (lexer : Lexer) (glyph : Glyph) (rest : List Glyph), glyph.char = char →
      lexer.fetch glyph rest = lexer.fetchFlowStart token rest) :
    Leads (Stands tokens depth false (char :: text))
      (Stands (tokens ++ [token]) (depth + 1) false text) := by
  apply leads_of_fetch shown visible
  intro lexer glyph rest stands next isChar spelled
  obtain ⟨saved, found, stands', -⟩ := stands.saveCandidate
  rw [starts lexer glyph rest isChar, fetchFlowStart, found]
  refine ⟨_, rfl, ?_, Nat.le_refl _⟩
  have inner : { saved with flow := none :: saved.flow : Lexer }.Stands tokens (depth + 1) false
      (char :: text) :=
    { stands' with
      depth := congrArg Nat.succ stands'.depth
      flow := List.forall_mem_cons.mpr ⟨rfl, stands'.flow⟩
      inKey := nofun }
  exact inner.take spelled nofun

theorem leads_flowEnd {char : Char} {token : Token} (shown : isShown char = true)
    (visible : char ≠ '#')
    (starts : ∀ (lexer : Lexer) (glyph : Glyph) (rest : List Glyph), glyph.char = char →
      lexer.fetch glyph rest = lexer.fetchFlowEnd token rest) :
    Leads (Stands tokens (depth + 1) false (char :: text))
      (Stands (tokens ++ [token]) depth false text) := by
  apply leads_of_fetch shown visible
  intro lexer glyph rest stands next isChar spelled
  obtain ⟨dropped, found, stands', -⟩ := stands.dropCandidate
  rw [starts lexer glyph rest isChar, fetchFlowEnd, found]
  refine ⟨_, rfl, ?_, Nat.le_refl _⟩
  have outer : { dropped with flow := dropped.flow.drop 1 : Lexer }.Stands tokens depth false
      (char :: text) :=
    { stands' with
      depth := by rw [List.length_drop, stands'.depth, Nat.add_sub_cancel]
      flow := fun candidate among => stands'.flow candidate (List.mem_of_mem_drop among)
      inKey := nofun }
  exact outer.take spelled nofun

theorem leads_opening {token : Token}
    (opens : token = .flowSequenceStart ∨ token = .flowMappingStart) :
    Leads (Stands tokens depth false (token.written ++ text))
      (Stands (tokens ++ [token]) (depth + 1) false text) := by
  rcases opens with rfl | rfl
  · exact leads_flowStart (by decide) (by decide) fun _ _ rest => fetch_sequenceStart rest
  · exact leads_flowStart (by decide) (by decide) fun _ _ rest => fetch_mappingStart rest

theorem leads_closing {token : Token}
    (closes : token = .flowSequenceEnd ∨ token = .flowMappingEnd) :
    Leads (Stands tokens (depth + 1) false (token.written ++ text))
      (Stands (tokens ++ [token]) depth false text) := by
  rcases closes with rfl | rfl
  · exact leads_flowEnd (by decide) (by decide) fun _ _ rest => fetch_sequenceEnd rest
  · exact leads_flowEnd (by decide) (by decide) fun _ _ rest => fetch_mappingEnd rest

theorem leads_flowEntry :
    Leads (Stands tokens depth false (',' :: text))
      (Stands (tokens ++ [.flowEntry]) depth false text) := by
  apply leads_of_fetch (by decide) (by decide)
  intro lexer glyph rest stands next isChar spelled
  obtain ⟨dropped, found, stands', -⟩ := stands.dropCandidate
  rw [fetch_flowEntry rest isChar, fetchFlowEntry, found]
  exact ⟨_, rfl, stands'.take spelled nofun, Nat.le_refl _⟩

theorem Stands.inFlow (stands : lexer.Stands tokens (depth + 1) inKey text) :
    lexer.inFlow = true := by
  unfold Lexer.inFlow
  cases levels : lexer.flow with
  | nil =>
    have none := stands.depth
    rw [levels] at none
    cases none
  | cons => rfl

theorem leads_key :
    Leads (Stands tokens (depth + 1) false ('?' :: text))
      (Stands (tokens ++ [.key]) (depth + 1) true text) := by
  apply leads_of_fetch (by decide) (by decide)
  intro lexer glyph rest stands next isChar spelled
  obtain ⟨dropped, found, stands', -, forgotten⟩ := stands.dropCandidate
  have opened : lexer.openBlock .blockMappingStart = some lexer := by
    rw [openBlock, stands.inFlow, if_pos rfl]
  rw [fetch_key rest isChar stands.inFlow, fetchKey, opened]
  simp only [bind, Option.bind_some, found]
  refine ⟨_, rfl, stands'.take spelled fun _ => ⟨?_, forgotten⟩, Nat.le_refl _⟩
  rw [stands'.inFlow]
  rfl

/-- Behind a key nothing is put in front of it. -/
theorem leads_value :
    Leads (Stands tokens (depth + 1) true (':' :: text))
      (Stands (tokens ++ [.value]) (depth + 1) false text) := by
  apply leads_of_fetch (by decide) (by decide)
  intro lexer glyph rest stands next isChar spelled
  have opened : lexer.openBlock .blockMappingStart = some lexer := by
    rw [openBlock, stands.inFlow, if_pos rfl]
  -- The key was announced by its mark, so no candidate is left that would have to be.
  rw [fetch_value rest isChar stands.inFlow, fetchValue, (stands.inKey rfl).2]
  simp only [opened, bind, Option.bind_some]
  exact ⟨_, rfl, stands.take spelled nofun, Nat.le_refl _⟩

theorem leads_quoted (content : String) :
    Leads (Stands tokens depth inKey (inQuotes content ++ text))
      (Stands (tokens ++ [.scalar content .doubleQuoted]) depth inKey text) := by
  apply leads_of_fetch (by decide) (by decide)
  intro lexer glyph rest stands next isChar spelled
  obtain ⟨saved, found, stands', -⟩ := stands.saveCandidate
  obtain ⟨quotedText, back, rfl, inside, behind⟩ := List.map_eq_append_iff.mp spelled
  obtain ⟨front, last, rfl, escapes, closes⟩ := List.map_eq_append_iff.mp inside
  obtain ⟨quote, _, rfl, isQuote, none⟩ := List.map_eq_cons_iff.mp closes
  obtain rfl := List.map_eq_nil_iff.mp none
  rw [fetch_quoted _ isChar, fetchNode, found, List.append_assoc, List.singleton_append,
    doubleQuoted_inQuotes escapes isQuote]
  refine ⟨_, rfl, ?_, ?_⟩
  · rw [List.append_nil, reading, List.reverse_reverse, String.ofList_toList]
    exact stands'.take behind fun key => ⟨rfl, (stands'.inKey key).2⟩
  · simp only [Lexer.take, reading, List.length_append, List.length_cons]
    omega

theorem leads_word {content : String} (word : isWord content = true) :
    Leads (Stands tokens (depth + 1) false (content.toList ++ ',' :: text))
      (Stands (tokens ++ [.scalar content .plain]) (depth + 1) false (',' :: text)) := by
  simp only [isWord, Bool.and_eq_true, List.all_eq_true] at word
  obtain ⟨filled, letters⟩ := word
  cases chars : content.toList with
  | nil => simp [String.toList_eq_nil_iff.mp chars] at filled
  | cons char more =>
    rw [chars] at letters
    have letter := letters char List.mem_cons_self
    apply leads_of_fetch (isShown_of_isAlphanum letter) (ne_of_isAlphanum letter (by decide))
    intro lexer glyph rest stands next isChar spelled
    obtain ⟨saved, found, stands', same⟩ := stands.saveCandidate
    obtain ⟨front, back, rfl, inside, behind⟩ := List.map_eq_append_iff.mp spelled
    obtain ⟨comma, back, rfl, isComma, behind'⟩ := List.map_eq_cons_iff.mp behind
    have read : plain true (saved.indent + 1) [] Gap.none ((glyph :: front) ++ comma :: back) = _ :=
      plain_word (by rw [List.map_cons, isChar, inside]) letters isComma
    -- The comma stays: it ends the word and is the next token.
    rw [fetch_plain _ (isChar ▸ letter), fetchPlain, found]
    simp only [bind, Option.bind_some, stands'.inFlow, same.trans next]
    rw [List.cons_append] at read
    rw [read]
    refine ⟨_, rfl, ?_, by simp [Lexer.take, plainReading, reading]⟩
    rw [plainReading, reading, List.append_nil, List.reverse_reverse, ← chars, String.ofList_toList]
    exact stands'.take behind nofun

/-! ### Whole trees -/

/-- The tokens are taken from the text that they are written to, if `behind` comes next. -/
def Takes (taken : List Token) (behind : List Char) : Prop :=
  ∀ tokens depth, Leads
    (Stands tokens (depth + 1) false (taken.flatMap Token.written ++ behind))
    (Stands (tokens ++ taken) (depth + 1) false behind)

theorem takes_nil (behind : List Char) : Takes [] behind := by
  intro tokens depth
  rw [List.append_nil]
  exact Leads.refl _

theorem Takes.append {first second : List Token} {behind : List Char}
    (here : Takes first (second.flatMap Token.written ++ behind)) (there : Takes second behind) :
    Takes (first ++ second) behind := by
  intro tokens depth
  rw [List.flatMap_append, List.append_assoc, ← List.append_assoc tokens]
  exact (here tokens depth).trans (there (tokens ++ first) depth)

/-- A key is taken with the marks around it. -/
theorem takes_name (name : String) (behind : List Char) :
    Takes [.key, .scalar name .doubleQuoted, .value] behind := by
  intro tokens depth
  have marked : Leads (Stands tokens (depth + 1) false ('?' :: (inQuotes name ++ ':' :: behind)))
      (Stands (tokens ++ [.key]) (depth + 1) true (inQuotes name ++ ':' :: behind)) := leads_key
  have whole := marked.trans ((leads_quoted name).trans leads_value)
  simpa [Token.written] using whole

/-- A flow collection is taken if what it holds is. -/
theorem leads_between {taken : List Token} {opens closes : Token} {behind : List Char}
    (opening : opens = .flowSequenceStart ∨ opens = .flowMappingStart)
    (closing : closes = .flowSequenceEnd ∨ closes = .flowMappingEnd)
    (inner : Takes taken (closes.written ++ behind)) (tokens : List Token) (depth : Nat) :
    Leads (Stands tokens depth false
        ((opens :: (taken ++ [closes])).flatMap Token.written ++ behind))
      (Stands (tokens ++ opens :: (taken ++ [closes])) depth false behind) := by
  have last : Leads _ (Stands (tokens ++ [opens] ++ taken ++ [closes]) depth false behind) :=
    leads_closing closing
  have whole := (leads_opening opening).trans ((inner (tokens ++ [opens]) depth).trans last)
  -- What is left is to bring both lists of tokens into one order of brackets.
  simpa using whole

mutual
theorem takes_node : (node : Node) → node.isFlow = true → ∀ text, Takes node.tokens (',' :: text)
  | .scalar none none .doubleQuoted content, _, text => by
    intro tokens depth
    simpa [Node.tokens, Token.written] using leads_quoted content
  | .scalar none none .plain content, flow, text => by
    intro tokens depth
    simpa [Node.tokens, Token.written] using leads_word flow
  | .sequence none none items, flow, text =>
    fun tokens depth =>
      leads_between (.inl rfl) (.inl rfl) (takes_items items flow _) tokens (depth + 1)
  | .mapping none none entries, flow, text =>
    fun tokens depth =>
      leads_between (.inr rfl) (.inr rfl) (takes_entries entries flow _) tokens (depth + 1)

theorem takes_items : (items : List Node) → Node.areFlow items = true → ∀ text,
    Takes (Node.tokensOfItems items) text
  | [], _, text => takes_nil text
  | item :: rest, flow, text => by
    have both := Bool.and_eq_true_iff.mp flow
    have comma : Takes [.flowEntry] ((Node.tokensOfItems rest).flatMap Token.written ++ text) :=
      fun tokens depth => leads_flowEntry
    exact (takes_node item both.1 _).append (comma.append (takes_items rest both.2 text))

theorem takes_entries : (entries : List (Node × Node)) → Node.entriesAreFlow entries = true →
    ∀ text, Takes (Node.tokensOfEntries entries) text
  | [], _, text => takes_nil text
  | (key, value) :: rest, flow, text => by
    have all := Bool.and_eq_true_iff.mp flow
    have both := Bool.and_eq_true_iff.mp all.1
    obtain ⟨name, rfl⟩ := Node.isFlow_of_isQuoted both.1
    have comma : Takes [.flowEntry] ((Node.tokensOfEntries rest).flatMap Token.written ++ text) :=
      fun tokens depth => leads_flowEntry
    exact (takes_name name _).append
      ((takes_node value both.2 _).append (comma.append (takes_entries rest all.2 text)))
end

/-- At the end of the text, with no collection open, the tokens are given back. -/
theorem Stands.run (stands : lexer.Stands tokens 0 inKey []) {fuel : Nat}
    (enough : lexer.rest.length < fuel) : Lexer.run fuel lexer = some tokens := by
  obtain ⟨fuel, rfl⟩ : ∃ less, fuel = less + 1 := ⟨fuel - 1, by omega⟩
  have ended : lexer.rest = [] := List.map_eq_nil_iff.mp stands.text
  obtain ⟨fresh, found, stands', same⟩ := stands.dropStale
  obtain ⟨dropped, found', stands'', -⟩ := stands'.dropCandidate
  have skipped : skip lexer.inFlow lexer.keyAllowed false lexer.rest =
      (lexer.keyAllowed, lexer.rest) := by
    rw [ended]
    rfl
  rw [Lexer.run, skipped]
  change (lexer.dropStale >>= _) = _
  rw [found]
  simp only [bind, Option.bind_some, stands'.unroll, same.trans ended, close, found']
  exact congrArg some stands''.tokens

end Lexer

/-! ### Written texts -/

theorem isShown_digitChar {digit : Nat} (small : digit < 16) : isShown digit.digitChar = true := by
  have all : ∀ digit < 16, isShown digit.digitChar = true := by decide
  exact all digit small

theorem isShown_of_mem_hexDigits {count code : Nat} (small : code < 16 ^ count) :
    ∀ char ∈ hexDigits count code, isShown char = true := by
  induction count generalizing code with
  | zero => exact List.forall_mem_nil _
  | succ count ih =>
    have rest : code % 16 ^ count < 16 ^ count := Nat.mod_lt _ (Nat.pow_pos (by decide))
    exact List.forall_mem_cons.mpr ⟨isShown_digitChar (first_hexDigit_lt small), ih rest⟩

theorem isShown_of_mem_escaped (own : Char) : ∀ char ∈ escaped own, isShown char = true := by
  have marked : ∀ char ∈ 'U' :: hexDigits 8 own.toNat, isShown char = true :=
    List.forall_mem_cons.mpr ⟨by decide, isShown_of_mem_hexDigits (toNat_lt_power own)⟩
  exact List.forall_mem_cons.mpr ⟨by decide, marked⟩

theorem isShown_of_mem_inQuotes (text : String) : ∀ char ∈ inQuotes text, isShown char = true := by
  have inner : ∀ char ∈ text.toList.flatMap escaped, isShown char = true := by
    intro char among
    obtain ⟨own, -, among⟩ := List.mem_flatMap.mp among
    exact isShown_of_mem_escaped own char among
  have closed : ∀ char ∈ text.toList.flatMap escaped ++ [doubleQuote], isShown char = true :=
    List.forall_mem_append.mpr ⟨inner, List.forall_mem_singleton.mpr (by decide)⟩
  exact List.forall_mem_cons.mpr ⟨by decide, closed⟩

/-- The token is written in characters that ASCII shows. -/
def Token.IsShown (token : Token) : Prop :=
  ∀ char ∈ token.written, isShown char = true

theorem Token.isShown_of_indicator {token : Token} {mark : Char} (written : token.written = [mark])
    (shown : isShown mark = true) : token.IsShown := by
  rw [IsShown, written]
  exact List.forall_mem_singleton.mpr shown

namespace Node

theorem isShown_between {taken : List Token} {opens closes : Token} (opening : opens.IsShown)
    (closing : closes.IsShown) (inner : ∀ token ∈ taken, token.IsShown) :
    ∀ token ∈ opens :: (taken ++ [closes]), token.IsShown :=
  List.forall_mem_cons.mpr
    ⟨opening, List.forall_mem_append.mpr ⟨inner, List.forall_mem_singleton.mpr closing⟩⟩

mutual
theorem isShown_tokens : (node : Node) → node.isFlow = true → ∀ token ∈ node.tokens, token.IsShown
  | .scalar none none .doubleQuoted content, _ =>
    List.forall_mem_singleton.mpr (isShown_of_mem_inQuotes content)
  | .scalar none none .plain content, flow => by
    have letters := List.all_eq_true.mp (Bool.and_eq_true_iff.mp flow).2
    exact List.forall_mem_singleton.mpr fun char among => isShown_of_isAlphanum (letters char among)
  | .sequence none none items, flow =>
    isShown_between (Token.isShown_of_indicator rfl (by decide))
      (Token.isShown_of_indicator rfl (by decide)) (isShown_tokensOfItems items flow)
  | .mapping none none entries, flow =>
    isShown_between (Token.isShown_of_indicator rfl (by decide))
      (Token.isShown_of_indicator rfl (by decide)) (isShown_tokensOfEntries entries flow)

theorem isShown_tokensOfItems : (items : List Node) → areFlow items = true →
    ∀ token ∈ tokensOfItems items, token.IsShown
  | [], _ => List.forall_mem_nil _
  | item :: rest, flow => by
    have both := Bool.and_eq_true_iff.mp flow
    have behind : ∀ token ∈ .flowEntry :: tokensOfItems rest, token.IsShown :=
      List.forall_mem_cons.mpr
        ⟨Token.isShown_of_indicator rfl (by decide), isShown_tokensOfItems rest both.2⟩
    exact List.forall_mem_append.mpr ⟨isShown_tokens item both.1, behind⟩

theorem isShown_tokensOfEntries : (entries : List (Node × Node)) → entriesAreFlow entries = true →
    ∀ token ∈ tokensOfEntries entries, token.IsShown
  | [], _ => List.forall_mem_nil _
  | (key, value) :: rest, flow => by
    have all := Bool.and_eq_true_iff.mp flow
    have both := Bool.and_eq_true_iff.mp all.1
    obtain ⟨name, rfl⟩ := isFlow_of_isQuoted both.1
    have named : ∀ token ∈ [Token.scalar name .doubleQuoted], token.IsShown :=
      List.forall_mem_singleton.mpr (isShown_of_mem_inQuotes name)
    have behind : ∀ token ∈ .flowEntry :: tokensOfEntries rest, token.IsShown :=
      List.forall_mem_cons.mpr
        ⟨Token.isShown_of_indicator rfl (by decide), isShown_tokensOfEntries rest all.2⟩
    have valued : ∀ token ∈ .value :: (value.tokens ++ .flowEntry :: tokensOfEntries rest),
        token.IsShown :=
      List.forall_mem_cons.mpr ⟨Token.isShown_of_indicator rfl (by decide),
        List.forall_mem_append.mpr ⟨isShown_tokens value both.2, behind⟩⟩
    exact List.forall_mem_cons.mpr ⟨Token.isShown_of_indicator rfl (by decide),
      List.forall_mem_append.mpr ⟨named, valued⟩⟩
end

end Node

theorem isAllowed_of_isShown {char : Char} (shown : isShown char = true) :
    isAllowed char = true := by
  simp only [isShown, Bool.and_eq_true, decide_eq_true_eq] at shown
  simp only [isAllowed, Bool.or_eq_true, Bool.and_eq_true, decide_eq_true_eq]
  omega

/-- A text of shown characters is its own glyphs. -/
theorem map_char_glyphsFrom {text : List Char} (shown : ∀ char ∈ text, isShown char = true)
    (place : Place) : (glyphsFrom place text).1.map Glyph.char = text := by
  induction text generalizing place with
  | nil => rfl
  | cons char rest ih =>
    have both := List.forall_mem_cons.mp shown
    have other {mark : Char} (hidden : isShown mark = false) : char ≠ mark :=
      ne_of_isShown both.1 hidden
    have unbroken : (char == '\n' || char == carriageReturn || char == nextLine) = false := by
      simp only [Bool.or_eq_false_iff, beq_eq_false_iff_ne]
      exact ⟨⟨other (by decide), other (by decide)⟩, other (by decide)⟩
    unfold glyphsFrom
    split
    next => exact absurd rfl (other (by decide))
    next =>
      simp only [unbroken, Bool.false_eq_true, if_false, List.map_cons, ih both.2]

/-- If a lexer takes some tokens from a text that is shown then the text is cut into them. -/
theorem tokens?_of_leads {tokens : List Token} {text : List Char}
    (shown : ∀ char ∈ text, isShown char = true)
    (taken : Lexer.Leads (Lexer.Stands [] 0 false text) (Lexer.Stands tokens 0 false [])) :
    tokens? text = some tokens := by
  have allowed : text.all isAllowed = true :=
    List.all_eq_true.mpr fun char among => isAllowed_of_isShown (shown char among)
  have spelled := map_char_glyphsFrom shown {}
  have count := congrArg List.length spelled
  rw [List.length_map] at count
  unfold tokens?
  rw [if_pos allowed]
  generalize glyphsFrom {} text = glyphs at spelled count
  obtain ⟨rest, finish⟩ := glyphs
  have stands : Lexer.Stands [] 0 false text { rest, finish } :=
    { tokens := rfl
      depth := rfl
      text := spelled
      indent := rfl
      outer := rfl
      candidate := rfl
      flow := List.forall_mem_nil _
      inKey := nofun }
  obtain ⟨last, fuel, ended, enough, same⟩ :=
    taken _ stands (text.length + 1) (Nat.lt_succ_of_le (Nat.le_of_eq count))
  exact same.trans (ended.run enough)

/-- A written collection is cut into its tokens. -/
theorem tokens?_written {entries : List (Node × Node)}
    (flow : (Node.mapping none none entries).isFlow = true) :
    tokens? (Node.mapping none none entries).written.toList =
      some (Node.mapping none none entries).tokens := by
  have taken := Lexer.leads_between (.inr rfl) (.inr rfl)
    (Lexer.takes_entries entries flow (Token.flowMappingEnd.written ++ [])) [] 0
  rw [List.append_nil, List.nil_append] at taken
  rw [Node.written, String.toList_ofList]
  refine tokens?_of_leads ?_ taken
  intro char among
  obtain ⟨token, taken, among⟩ := List.mem_flatMap.mp among
  exact Node.isShown_tokens _ flow token taken char among

/-- A written collection is read back. -/
theorem document?_written {entries : List (Node × Node)}
    (flow : (Node.mapping none none entries).isFlow = true) :
    document? (Node.mapping none none entries).written =
      some (some (.mapping none none entries)) :=
  Node.document?_of_tokens? flow (tokens?_written flow)

example : (Node.mapping none none [(.scalar none none .doubleQuoted "é",
    .sequence none none [.scalar none none .plain "1"])]).written =
      "\x7b?\"\\U000000e9\":[1,],\x7d" := by decide

end BoardBench.Yaml
