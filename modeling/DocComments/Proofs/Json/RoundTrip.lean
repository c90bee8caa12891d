import DocComments.Json.Reader
import DocComments.Proofs.Json.Tokens

/-!
# Reading written JSON

Reading the tokens of a value leaves the value, whatever arrays and objects it stands in
(`foldlM_tokens`). So the text of a value whose numbers are numerals reads back as the value, in the
compact and in the indented layout alike (`parse?_write`). The values that plain data is written as
are such values (`numbered_ofDocument`).
-/

namespace DocComments.Json

/-- A value begins with no closing bracket, so the first item of an array is read like any value. -/
theorem foldlM_tokens_firstItem (json : Json) (opened : List Open) (more : List Token) :
    (json.tokens ++ more).foldlM readToken ⟨opened, .firstItem⟩ =
      (json.tokens ++ more).foldlM readToken ⟨.array [] :: opened, .value⟩ := by
  have first : ∀ token tokens, token ≠ .closeBracket →
      (token :: tokens).foldlM readToken ⟨opened, .firstItem⟩ =
        (token :: tokens).foldlM readToken ⟨.array [] :: opened, .value⟩ := by
    intro token tokens other
    cases token <;> first | rfl | exact absurd rfl other
  match json with
  | .null | .boolean _ | .number _ | .string _ => exact first _ _ (by simp)
  | .array [] | .array (_ :: _) => exact first _ _ (by simp)
  | .object [] | .object (_ :: _) => exact first _ _ (by simp)

mutual

/-- Reading the tokens of a value where a value is asked for finishes that value. -/
theorem foldlM_tokens : (json : Json) → (opened : List Open) → (more : List Token) →
    (json.tokens ++ more).foldlM readToken ⟨opened, .value⟩ =
      more.foldlM readToken ⟨opened, .after json⟩
  | .null, _, _ => rfl
  | .boolean _, _, _ => rfl
  | .number _, _, _ => rfl
  | .string _, _, _ => rfl
  | .array [], _, _ => rfl
  | .array (item :: items), opened, more => by
      have inside := foldlM_tokens item (.array [] :: opened)
        (itemTokens items ++ .closeBracket :: more)
      rw [← foldlM_tokens_firstItem, foldlM_itemTokens items [] item opened more] at inside
      simp only [tokens, List.cons_append, List.append_assoc, List.nil_append]
      exact inside
  | .object [], _, _ => rfl
  | .object ((name, value) :: members), opened, more => by
      have inside := foldlM_tokens value (.object [] name :: opened)
        (memberTokens members ++ .closeBrace :: more)
      rw [foldlM_memberTokens members [] name value opened more] at inside
      simp only [tokens, List.cons_append, List.append_assoc, List.nil_append]
      exact inside

/-- Reading the items behind one that has been read finishes the array. -/
theorem foldlM_itemTokens : (items before : List Json) → (item : Json) → (opened : List Open) →
    (more : List Token) →
      (itemTokens items ++ .closeBracket :: more).foldlM readToken
          ⟨.array before :: opened, .after item⟩ =
        more.foldlM readToken ⟨opened, .after (.array (before ++ item :: items))⟩
  | [], _, _, _, _ => rfl
  | next :: items, before, item, opened, more => by
      have inside := foldlM_tokens next (.array (before ++ [item]) :: opened)
        (itemTokens items ++ .closeBracket :: more)
      rw [foldlM_itemTokens items (before ++ [item]) next opened more] at inside
      rw [List.append_assoc, List.singleton_append] at inside
      simp only [itemTokens, List.cons_append, List.append_assoc]
      exact inside

/-- Reading the members behind one that has been read finishes the object. -/
theorem foldlM_memberTokens : (members before : List (String × Json)) → (name : String) →
    (value : Json) → (opened : List Open) → (more : List Token) →
      (memberTokens members ++ .closeBrace :: more).foldlM readToken
          ⟨.object before name :: opened, .after value⟩ =
        more.foldlM readToken ⟨opened, .after (.object (before ++ (name, value) :: members))⟩
  | [], _, _, _, _, _ => rfl
  | (next, item) :: members, before, name, value, opened, more => by
      have inside := foldlM_tokens item (.object (before ++ [(name, value)]) next :: opened)
        (memberTokens members ++ .closeBrace :: more)
      rw [foldlM_memberTokens members (before ++ [(name, value)]) next item opened more] at inside
      rw [List.append_assoc, List.singleton_append] at inside
      simp only [memberTokens, List.cons_append, List.append_assoc]
      exact inside

end

/-- Reading a written value gives the value back. -/
theorem parse?_write {layout : Layout} (spaced : layout.Spaced) (json : Json)
    (numbered : Numbered json.tokens) :
    parse? (String.ofList (json.write layout 0)) = some json := by
  have lexed := tokens?_write spaced json numbered 0 ends_nil
  have read := foldlM_tokens json [] []
  rw [List.append_nil] at lexed read
  have none : tokens? [] = some [] := by rw [tokens?]
  simp [parse?, lexed, read, none, finished?]

mutual

theorem numbered_ofDocument : (document : Document) → Numbered (ofDocument document).tokens
  | .null | .boolean _ | .string _ => by simp [ofDocument, tokens]
  | .integer value => by simpa [ofDocument, tokens] using Numeral.ofNat value
  | .number value => by
      cases size : value.magnitude with
      | finite significand exponent =>
          simpa [ofDocument, ofNumber, size, tokens] using Numeral.render size
      | infinite | undefined => simp [ofDocument, ofNumber, size, tokens]
  | .sequence [] | .mapping [] => by simp [ofDocument, ofDocuments, ofMembers, tokens]
  | .sequence (item :: items) => by
      simp [ofDocument, ofDocuments, tokens, numbered_ofDocument item, numbered_ofDocuments items]
  | .mapping ((name, value) :: members) => by
      simp [ofDocument, ofMembers, tokens, numbered_ofDocument value, numbered_ofMembers members]

theorem numbered_ofDocuments : (items : List Document) → Numbered (itemTokens (ofDocuments items))
  | [] => by simp [ofDocuments, itemTokens]
  | item :: items => by
      simp [ofDocuments, itemTokens, numbered_ofDocument item, numbered_ofDocuments items]

theorem numbered_ofMembers : (members : List (String × Document)) →
    Numbered (memberTokens (ofMembers members))
  | [] => by simp [ofMembers, memberTokens]
  | (name, value) :: members => by
      simp [ofMembers, memberTokens, numbered_ofDocument value, numbered_ofMembers members]

end

/-- Plain data written as indented JSON reads back as the value it was written from. -/
theorem parse?_pretty_ofDocument (document : Document) :
    parse? (ofDocument document).pretty = some (ofDocument document) :=
  parse?_write Layout.spaced_pretty _ (numbered_ofDocument document)

end DocComments.Json
