import DocComments.Json.Writer
import DocComments.Proofs.Json.Numerals
import Mathlib.Tactic.SplitIfs

/-!
# The tokens of written JSON

The tokens of a JSON value are defined on the tree, and the text of the value has just these tokens
(`tokens?_write`). The layout may put any white space between them. A number or a word goes on as
far as it can, so what follows a value must not continue it (`Ends`).
-/

namespace DocComments.Json

/-- What follows does not continue a number or a word. -/
def Ends (rest : Text) : Prop :=
  ∀ c, rest.head? = some c → isNumberPart c = false ∧ c.isAlpha = false

theorem ends_nil : Ends [] := by simp [Ends]

theorem ends_cons {c : Char} {rest : Text} (part : isNumberPart c = false)
    (letter : c.isAlpha = false) : Ends (c :: rest) := by
  intro first same
  obtain rfl : c = first := by simpa using same
  exact ⟨part, letter⟩

theorem not_isNumberPart_of_isSpace {c : Char} (space : isSpace c = true) :
    isNumberPart c = false ∧ c.isAlpha = false := by
  simp only [isSpace, Bool.or_eq_true, beq_iff_eq] at space
  rcases space with ((rfl | rfl) | rfl) | rfl <;> decide

theorem ends_spaces {spaces rest : Text} (spaced : ∀ c ∈ spaces, isSpace c = true)
    (ends : Ends rest) : Ends (spaces ++ rest) := by
  cases spaces with
  | nil => exact ends
  | cons c spaces =>
      obtain ⟨part, letter⟩ := not_isNumberPart_of_isSpace (spaced c (by simp))
      exact ends_cons part letter

/-! ### Strings -/

theorem hexUnit?_hexDigit {n : Nat} (control : n < 0x20) (rest : Text) :
    hexUnit? ('0' :: '0' :: hexDigit (n / 16) :: hexDigit n :: rest) = some (n, rest) := by
  have value : ∀ n < 0x20,
      Text.natOfDigits? 16 ['0', '0', hexDigit (n / 16), hexDigit n] = some n := by
    decide
  simp [hexUnit?, value n control]

theorem numberedEscape?_hexDigit {c : Char} (control : c.toNat < 0x20) (rest : Text) :
    numberedEscape? ('0' :: '0' :: hexDigit (c.toNat / 16) :: hexDigit c.toNat :: rest) =
      some (c, rest) := by
  simp only [numberedEscape?, hexUnit?_hexDigit control]
  rw [if_neg (by omega), if_neg (by omega), Char.ofNat_toNat]

theorem stringBody?_backslash {c : Char} {text after : Text}
    (escaped : escape? text = some (c, after)) :
    stringBody? ('\\' :: text) =
      (stringBody? after).map fun (body, rest) => (c :: body, rest) := by
  rw [stringBody?, if_neg (by decide), if_pos rfl]
  split
  · simp_all
  · next value tail found =>
    obtain ⟨rfl, rfl⟩ : value = c ∧ tail = after := by simpa [found] using escaped
    rfl

/-- Reading a string undoes the escape of its first character. -/
theorem stringBody?_escape (c : Char) (text : Text) :
    stringBody? (escape c ++ text) =
      (stringBody? text).map fun (body, rest) => (c :: body, rest) := by
  unfold escape
  split_ifs with quoted backslash backspace formFeed lineFeed carriageReturn tab control
  · subst quoted
    exact stringBody?_backslash rfl
  · subst backslash
    exact stringBody?_backslash rfl
  · subst backspace
    exact stringBody?_backslash rfl
  · subst formFeed
    exact stringBody?_backslash rfl
  · subst lineFeed
    exact stringBody?_backslash rfl
  · subst carriageReturn
    exact stringBody?_backslash rfl
  · subst tab
    exact stringBody?_backslash rfl
  · exact stringBody?_backslash (numberedEscape?_hexDigit control text)
  · rw [List.singleton_append, stringBody?, if_neg quoted, if_neg backslash, if_neg control]

/-- Reading a string gives the characters that were escaped. -/
theorem stringBody?_flatMap_escape (body rest : Text) :
    stringBody? (body.flatMap escape ++ '"' :: rest) = some (body, rest) := by
  induction body with
  | nil => simp [stringBody?]
  | cons c body ih => simp [stringBody?_escape, ih]

/-! ### One token -/

theorem tokens?_space {c : Char} (space : isSpace c = true) (rest : Text) :
    tokens? (c :: rest) = tokens? rest := by
  rw [tokens?, if_pos space]

theorem tokens?_spaces {spaces : Text} (spaced : ∀ c ∈ spaces, isSpace c = true)
    (rest : Text) : tokens? (spaces ++ rest) = tokens? rest := by
  induction spaces with
  | nil => rfl
  | cons c spaces ih =>
      rw [List.cons_append, tokens?_space (spaced c (by simp))]
      exact ih fun c member => spaced c (List.mem_cons_of_mem _ member)

theorem tokens?_punctuation {c : Char} {mark : Token} (found : punctuation? c = some mark)
    (rest : Text) : tokens? (c :: rest) = (tokens? rest).map (mark :: ·) := by
  have visible : isSpace c = false := by
    unfold punctuation? at found
    split at found <;> first | rfl | simp at found
  rw [tokens?, if_neg (by simp [visible]), found]

theorem tokens?_quote (value : String) (rest : Text) :
    tokens? (quote value ++ rest) = (tokens? rest).map (.string value :: ·) := by
  have body : stringBody? (value.toList.flatMap escape ++ ['"'] ++ rest) =
      some (value.toList, rest) := by
    simpa using stringBody?_flatMap_escape value.toList rest
  have noMark : punctuation? '"' = none := rfl
  rw [quote, List.cons_append, List.cons_append, tokens?, if_neg (by decide), noMark]
  simp only [if_true]
  split
  · simp_all
  · next found =>
    simp only [body, Option.some.injEq, Prod.mk.injEq] at found
    obtain ⟨rfl, rfl⟩ := found
    rw [String.ofList_toList]

/-- Numbers and words begin with a character that is nothing else. -/
theorem visible_of_isNumberPart_or_isAlpha {c : Char}
    (begins : isNumberPart c = true ∨ c.isAlpha = true) :
    isSpace c = false ∧ punctuation? c = none ∧ c ≠ '"' := by
  refine ⟨?_, ?_, ?_⟩
  · cases space : isSpace c with
    | false => rfl
    | true => simp [not_isNumberPart_of_isSpace space] at begins
  · unfold punctuation?
    split
    all_goals first | rfl | exact absurd begins (by decide)
  · rintro rfl
    exact absurd begins (by decide)

theorem tokens?_numeral {text rest : Text} (numeral : Numeral text) (ends : Ends rest) :
    tokens? (text ++ rest) = (tokens? rest).map (.number (String.ofList text) :: ·) := by
  have taken := Text.takeWhile_append_of_stop numeral.isNumberPart fun c first => (ends c first).1
  have dropped := Text.dropWhile_append_of_stop numeral.isNumberPart fun c first => (ends c first).1
  obtain ⟨first, tail, rfl⟩ := List.exists_cons_of_ne_nil numeral.ne_nil
  have part := numeral.isNumberPart first (by simp)
  obtain ⟨visible, noMark, noQuote⟩ := visible_of_isNumberPart_or_isAlpha (.inl part)
  rw [List.cons_append] at taken dropped
  rw [List.cons_append, tokens?, if_neg (by simp [visible]), noMark]
  simp only [if_neg noQuote, part, taken, dropped, numeral.isNumber, dite_true, if_true]

/-- The words are rows of letters, and none begins like a number. -/
theorem letters_of_word? {letters : Text} {token : Token} (found : word? letters = some token) :
    (∀ c ∈ letters, c.isAlpha = true) ∧
      ∃ first tail, letters = first :: tail ∧ isNumberPart first = false := by
  unfold word? at found
  split_ifs at found with null yes no
  · subst null
    exact ⟨List.all_eq_true.mp rfl, 'n', ['u', 'l', 'l'], rfl, rfl⟩
  · subst yes
    exact ⟨List.all_eq_true.mp rfl, 't', ['r', 'u', 'e'], rfl, rfl⟩
  · subst no
    exact ⟨List.all_eq_true.mp rfl, 'f', ['a', 'l', 's', 'e'], rfl, rfl⟩

theorem tokens?_word {letters rest : Text} {token : Token} (found : word? letters = some token)
    (ends : Ends rest) : tokens? (letters ++ rest) = (tokens? rest).map (token :: ·) := by
  obtain ⟨alphabetic, first, tail, rfl, noPart⟩ := letters_of_word? found
  have taken := Text.takeWhile_append_of_stop alphabetic fun c first => (ends c first).2
  have dropped := Text.dropWhile_append_of_stop alphabetic fun c first => (ends c first).2
  have letter := alphabetic first (by simp)
  obtain ⟨visible, noMark, noQuote⟩ := visible_of_isNumberPart_or_isAlpha (.inr letter)
  rw [List.cons_append] at taken dropped
  rw [List.cons_append, tokens?, if_neg (by simp [visible]), noMark]
  simp [noQuote, noPart, letter, taken, dropped, found]

/-! ### Whole values -/

mutual

/-- The tokens of a value. -/
def tokens : Json → List Token
  | .null => [.null]
  | .boolean value => [.boolean value]
  | .number token => [.number token]
  | .string value => [.string value]
  | .array [] => [.openBracket, .closeBracket]
  | .array (item :: items) => .openBracket :: tokens item ++ itemTokens items ++ [.closeBracket]
  | .object [] => [.openBrace, .closeBrace]
  | .object ((name, value) :: members) =>
    .openBrace :: .string name :: .colon :: tokens value ++ memberTokens members ++ [.closeBrace]

/-- The tokens of the items of an array after the first. -/
def itemTokens : List Json → List Token
  | [] => []
  | item :: items => .comma :: tokens item ++ itemTokens items

/-- The tokens of the members of an object after the first. -/
def memberTokens : List (String × Json) → List Token
  | [] => []
  | (name, value) :: members =>
    .comma :: .string name :: .colon :: tokens value ++ memberTokens members

end

/-- Every number among the tokens is a numeral. -/
def Numbered (tokens : List Token) : Prop :=
  ∀ text, .number text ∈ tokens → Numeral text.toList

@[simp] theorem numbered_nil : Numbered [] := by simp [Numbered]

@[simp] theorem numbered_cons (token : Token) (tokens : List Token) :
    Numbered (token :: tokens) ↔
      (∀ text, token = .number text → Numeral text.toList) ∧ Numbered tokens := by
  simp only [Numbered, List.mem_cons, or_imp, forall_and, eq_comm]

@[simp] theorem numbered_append (front back : List Token) :
    Numbered (front ++ back) ↔ Numbered front ∧ Numbered back := by
  simp only [Numbered, List.mem_append, or_imp, forall_and]

/-- The layout puts nothing but white space between the tokens. -/
structure Layout.Spaced (layout : Layout) : Prop where
  newline : ∀ depth, ∀ c ∈ layout.newline depth, isSpace c = true
  colon : ∃ spaces, layout.colon = ':' :: spaces ∧ ∀ c ∈ spaces, isSpace c = true

theorem Layout.spaced_pretty : Layout.pretty.Spaced where
  newline depth c member := by
    rcases List.mem_cons.mp member with rfl | member
    · rfl
    · rw [List.eq_of_mem_replicate member]
      rfl
  colon := ⟨[' '], rfl, List.all_eq_true.mp rfl⟩

theorem ends_writeItems (layout : Layout) (items : List Json) (depth : Nat) {rest : Text}
    (ends : Ends rest) : Ends (writeItems layout depth items ++ rest) := by
  cases items with
  | nil => exact ends
  | cons item items => exact ends_cons rfl rfl

theorem ends_writeMembers (layout : Layout) (members : List (String × Json)) (depth : Nat)
    {rest : Text} (ends : Ends rest) : Ends (writeMembers layout depth members ++ rest) := by
  cases members with
  | nil => exact ends
  | cons member members => exact ends_cons rfl rfl

section

variable {layout : Layout} (spaced : layout.Spaced)
include spaced

theorem tokens?_newline (depth : Nat) (rest : Text) :
    tokens? (layout.newline depth ++ rest) = tokens? rest :=
  tokens?_spaces (spaced.newline depth) rest

theorem tokens?_colon (rest : Text) :
    tokens? (layout.colon ++ rest) = (tokens? rest).map (.colon :: ·) := by
  obtain ⟨spaces, colon, blank⟩ := spaced.colon
  rw [colon, List.cons_append, tokens?_punctuation rfl, tokens?_spaces blank]

theorem ends_newline (depth : Nat) {rest : Text} (ends : Ends rest) :
    Ends (layout.newline depth ++ rest) :=
  ends_spaces (spaced.newline depth) ends

mutual

/-- The text of a value has the tokens of the value, and what follows keeps its own. -/
theorem tokens?_write : (json : Json) → Numbered json.tokens → (depth : Nat) → {rest : Text} →
    Ends rest → tokens? (json.write layout depth ++ rest) = (tokens? rest).map (json.tokens ++ ·)
  | .null, _, _, _, ends => tokens?_word rfl ends
  | .boolean true, _, _, _, ends => tokens?_word rfl ends
  | .boolean false, _, _, _, ends => tokens?_word rfl ends
  | .number token, numbered, _, rest, ends => by
      have numeral : Numeral token.toList := by simpa [tokens] using numbered
      rw [write, tokens?_numeral numeral ends, String.ofList_toList]
      rfl
  | .string value, _, _, rest, _ => tokens?_quote value rest
  | .array [], _, _, rest, _ => by
      simp [write, tokens, tokens?_punctuation (c := '[') rfl, tokens?_punctuation (c := ']') rfl,
        Function.comp_def]
  | .array (item :: items), numbered, depth, rest, _ => by
      have closed : Ends (layout.newline depth ++ ']' :: rest) :=
        ends_newline spaced depth (ends_cons rfl rfl)
      have inside : Numbered item.tokens ∧ Numbered (itemTokens items) := by
        simpa [tokens] using numbered
      have first := tokens?_write item inside.1 (depth + 1)
        (ends_writeItems layout items (depth + 1) closed)
      have others := tokens?_writeItems items inside.2 (depth + 1) closed
      simp [write, tokens, tokens?_punctuation (c := '[') rfl, tokens?_newline spaced, first,
        others, tokens?_punctuation (c := ']') rfl, Function.comp_def]
  | .object [], _, _, rest, _ => by
      simp [write, tokens, tokens?_punctuation (c := '\x7b') rfl,
        tokens?_punctuation (c := '\x7d') rfl, Function.comp_def]
  | .object ((name, value) :: members), numbered, depth, rest, _ => by
      have closed : Ends (layout.newline depth ++ '\x7d' :: rest) :=
        ends_newline spaced depth (ends_cons rfl rfl)
      have inside : Numbered value.tokens ∧ Numbered (memberTokens members) := by
        simpa [tokens] using numbered
      have first := tokens?_write value inside.1 (depth + 1)
        (ends_writeMembers layout members (depth + 1) closed)
      have others := tokens?_writeMembers members inside.2 (depth + 1) closed
      simp [write, tokens, tokens?_punctuation (c := '\x7b') rfl, tokens?_newline spaced,
        tokens?_quote, tokens?_colon spaced, first, others, tokens?_punctuation (c := '\x7d') rfl,
        Function.comp_def]

theorem tokens?_writeItems : (items : List Json) → Numbered (itemTokens items) → (depth : Nat) →
    {rest : Text} → Ends rest →
      tokens? (writeItems layout depth items ++ rest) = (tokens? rest).map (itemTokens items ++ ·)
  | [], _, _, rest, _ => by simp [writeItems, itemTokens]
  | item :: items, numbered, depth, rest, ends => by
      have inside : Numbered item.tokens ∧ Numbered (itemTokens items) := by
        simpa [itemTokens] using numbered
      have first := tokens?_write item inside.1 depth (ends_writeItems layout items depth ends)
      have others := tokens?_writeItems items inside.2 depth ends
      simp [writeItems, itemTokens, tokens?_punctuation (c := ',') rfl, tokens?_newline spaced,
        first, others, Function.comp_def]

theorem tokens?_writeMembers : (members : List (String × Json)) →
    Numbered (memberTokens members) → (depth : Nat) → {rest : Text} → Ends rest →
      tokens? (writeMembers layout depth members ++ rest) =
        (tokens? rest).map (memberTokens members ++ ·)
  | [], _, _, rest, _ => by simp [writeMembers, memberTokens]
  | (name, value) :: members, numbered, depth, rest, ends => by
      have inside : Numbered value.tokens ∧ Numbered (memberTokens members) := by
        simpa [memberTokens] using numbered
      have first := tokens?_write value inside.1 depth (ends_writeMembers layout members depth ends)
      have others := tokens?_writeMembers members inside.2 depth ends
      simp [writeMembers, memberTokens, tokens?_punctuation (c := ',') rfl, tokens?_newline spaced,
        tokens?_quote, tokens?_colon spaced, first, others, Function.comp_def]

end

end

end DocComments.Json
