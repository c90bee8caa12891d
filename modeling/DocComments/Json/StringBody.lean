import DocComments.Text.Digits

/-!
# JSON strings

The characters of a JSON string, given what follows its opening quote. A bare control character ends
no string, and neither does an escape that stands for no character: both are refused. What follows a
string is shorter than what was read (`length_lt_of_stringBody?`).
-/

namespace DocComments.Json

/-- Four hexadecimal digits, and what follows them. -/
def hexUnit? : Text → Option (Nat × Text)
  | a :: b :: c :: d :: rest => (Text.natOfDigits? 16 [a, b, c, d]).map (·, rest)
  | _ => none

/-- The character behind `\u`. A number between `D800` and `DBFF` is the upper half of a character,
and the lower half follows in a second escape. -/
def numberedEscape? (text : Text) : Option (Char × Text) :=
  match hexUnit? text with
  | none => none
  | some (unit, rest) =>
    if 0xD800 ≤ unit ∧ unit < 0xDC00 then
      match rest with
      | '\\' :: 'u' :: lower =>
        match hexUnit? lower with
        | some (low, rest) =>
          if 0xDC00 ≤ low ∧ low < 0xE000 then
            some (Char.ofNat (0x10000 + (unit - 0xD800) * 0x400 + (low - 0xDC00)), rest)
          else none
        | none => none
      | _ => none
    else if 0xDC00 ≤ unit ∧ unit < 0xE000 then none
    else some (Char.ofNat unit, rest)

/-- The character that a letter stands for behind a backslash. -/
def letterEscape? (c : Char) : Option Char :=
  match c with
  | '"' => some '"'
  | '\\' => some '\\'
  | '/' => some '/'
  | 'b' => some '\x08'
  | 'f' => some '\x0c'
  | 'n' => some '\n'
  | 'r' => some '\r'
  | 't' => some '\t'
  | _ => none

/-- The character that an escape stands for, given what follows the backslash. -/
def escape? : Text → Option (Char × Text)
  | [] => none
  | c :: rest => if c = 'u' then numberedEscape? rest else (letterEscape? c).map (·, rest)

theorem length_lt_of_hexUnit? {text rest : Text} {unit : Nat}
    (read : hexUnit? text = some (unit, rest)) : rest.length < text.length := by
  unfold hexUnit? at read
  split at read
  · simp only [Option.map_eq_some_iff, Prod.mk.injEq] at read
    obtain ⟨_, _, _, rfl⟩ := read
    simp only [List.length_cons]
    omega
  · simp at read

theorem length_lt_of_numberedEscape? {text rest : Text} {c : Char}
    (read : numberedEscape? text = some (c, rest)) : rest.length < text.length := by
  unfold numberedEscape? at read
  split at read
  · simp at read
  · rename_i unit after first
    have shorter := length_lt_of_hexUnit? first
    split at read
    · split at read
      · split at read
        · rename_i lower _ low last second
          have shortest := length_lt_of_hexUnit? second
          split at read
          · simp only [Option.some.injEq, Prod.mk.injEq] at read
            obtain ⟨_, rfl⟩ := read
            simp only [List.length_cons] at shorter
            omega
          · simp at read
        · simp at read
      · simp at read
    · split at read
      · simp at read
      · simp only [Option.some.injEq, Prod.mk.injEq] at read
        obtain ⟨_, rfl⟩ := read
        exact shorter

theorem length_lt_of_escape? {text rest : Text} {c : Char}
    (read : escape? text = some (c, rest)) : rest.length < text.length := by
  cases text with
  | nil => simp [escape?] at read
  | cons first tail =>
      simp only [escape?] at read
      split at read
      · exact Nat.lt_succ_of_lt (length_lt_of_numberedEscape? read)
      · simp only [Option.map_eq_some_iff, Prod.mk.injEq] at read
        obtain ⟨_, _, _, rfl⟩ := read
        exact Nat.lt_succ_self _

/-- The characters of a string whose opening quote has been passed, and what follows its closing
quote. -/
def stringBody? (text : Text) : Option (Text × Text) :=
  match text with
  | [] => none
  | c :: rest =>
    if c = '"' then some ([], rest)
    else if c = '\\' then
      match _ : escape? rest with
      | none => none
      | some (value, after) => (stringBody? after).map fun (body, rest) => (value :: body, rest)
    else if c.toNat < 0x20 then none
    else (stringBody? rest).map fun (body, rest) => (c :: body, rest)
termination_by text.length
decreasing_by
  · exact Nat.lt_succ_of_lt (length_lt_of_escape? ‹_›)
  · simp

theorem length_lt_of_stringBody? {text body rest : Text}
    (read : stringBody? text = some (body, rest)) : rest.length < text.length := by
  fun_induction stringBody? text generalizing body with
  | case1 => simp at read
  | case2 after =>
      simp only [Option.some.injEq, Prod.mk.injEq] at read
      obtain ⟨_, rfl⟩ := read
      simp
  | case3 => simp at read
  | case4 after value tail escaped _ ih =>
      simp only [Option.map_eq_some_iff, Prod.mk.injEq] at read
      obtain ⟨⟨inner, last⟩, inside, _, same⟩ := read
      have first := length_lt_of_escape? escaped
      subst same
      have second : last.length < tail.length := ih inside
      simp only [List.length_cons]
      omega
  | case5 => simp at read
  | case6 c after _ _ _ ih =>
      simp only [Option.map_eq_some_iff, Prod.mk.injEq] at read
      obtain ⟨⟨inner, last⟩, inside, _, same⟩ := read
      subst same
      have second : last.length < after.length := ih inside
      simp only [List.length_cons]
      omega

end DocComments.Json
