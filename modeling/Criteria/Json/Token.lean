import Criteria.Json.Numeral

/-!
The tokens of a JSON text: brackets, separators, texts and the values written
without brackets.
-/

namespace Criteria.Json

inductive Token where
  | openList
  | closeList
  | openMap
  | closeMap
  | comma
  | colon
  | text (value : Text)
  | value (value : Json)

namespace Token

def isBlank (c : Char) : Bool :=
  c == ' ' || c == '\t' || c == '\n' || c == '\r'

def hexDigit? (c : Char) : Option Nat :=
  if c.isDigit then some (c.toNat - '0'.toNat)
  else if 'a' ≤ c && c ≤ 'f' then some (c.toNat - 'a'.toNat + 10)
  else if 'A' ≤ c && c ≤ 'F' then some (c.toNat - 'A'.toNat + 10)
  else none

/-- Reads four hexadecimal digits. -/
def readHex? : Text → Option (Nat × Text)
  | a :: b :: c :: d :: rest => do
      let digits ← [a, b, c, d].mapM hexDigit?
      return (digits.foldl (fun n digit => 16 * n + digit) 0, rest)
  | _ => none

def isHighSurrogate (n : Nat) : Bool := 0xD800 ≤ n && n ≤ 0xDBFF

def isLowSurrogate (n : Nat) : Bool := 0xDC00 ≤ n && n ≤ 0xDFFF

/-- What a backslash and one character denote. -/
def escaped? : Char → Option Char
  | '"' => some '"'
  | '\\' => some '\\'
  | '/' => some '/'
  | 'b' => some '\x08'
  | 'f' => some '\x0C'
  | 'n' => some '\n'
  | 'r' => some '\r'
  | 't' => some '\t'
  | _ => none

/-- Reads a character from after the `u` of its escape. A character beyond U+FFFF
is a pair of surrogates, and a surrogate must be half of a pair. -/
def readUnicode? (source : Text) : Option (Char × Text) := do
  let (unit, rest) ← readHex? source
  if isHighSurrogate unit then
    match rest with
    | '\\' :: 'u' :: rest =>
        let (low, rest) ← readHex? rest
        if isLowSurrogate low then
          some (.ofNat (0x10000 + (unit - 0xD800) * 0x400 + (low - 0xDC00)), rest)
        else none
    | _ => none
  else if isLowSurrogate unit then none
  else some (.ofNat unit, rest)

/-- Reads one character of a quoted text. Characters below U+0020 must be
escaped. -/
def readCharacter? : Text → Option (Char × Text)
  | '\\' :: 'u' :: rest => readUnicode? rest
  | '\\' :: c :: rest => (escaped? c).map fun meaning => (meaning, rest)
  | c :: rest => if ' ' ≤ c && c != '\\' then some (c, rest) else none
  | [] => none

theorem readHex?_shorter {source left : Text} {n : Nat}
    (h : readHex? source = some (n, left)) : left.length < source.length := by
  match source with
  | a :: b :: c :: d :: rest =>
      simp only [readHex?, Option.bind_eq_bind, Option.bind_eq_some_iff] at h
      obtain ⟨digits, _, h⟩ := h
      have same : rest = left := by
        have pair := Option.some.inj h
        exact congrArg Prod.snd pair
      simp only [← same, List.length_cons]
      omega

theorem readUnicode?_shorter {source left : Text} {c : Char}
    (h : readUnicode? source = some (c, left)) : left.length < source.length := by
  simp only [readUnicode?, Option.bind_eq_bind, Option.bind_eq_some_iff] at h
  obtain ⟨⟨unit, rest⟩, first, h⟩ := h
  have shorter := readHex?_shorter first
  split at h
  · split at h
    · next _ tail same =>
      simp only [Option.bind_eq_some_iff] at h
      obtain ⟨⟨low, rest'⟩, second, h⟩ := h
      have shorter' := readHex?_shorter second
      split at h
      · simp only [Option.some.injEq, Prod.mk.injEq] at h
        have same : rest = '\\' :: 'u' :: tail := same
        rw [same, List.length_cons, List.length_cons] at shorter
        rw [← h.2]
        omega
      · simp at h
    · simp at h
  · split at h
    · simp at h
    · simp only [Option.some.injEq, Prod.mk.injEq] at h
      rw [← h.2]
      exact shorter

theorem readCharacter?_shorter {source left : Text} {c : Char}
    (h : readCharacter? source = some (c, left)) : left.length < source.length := by
  unfold readCharacter? at h
  split at h
  · have shorter := readUnicode?_shorter h
    simp only [List.length_cons]
    omega
  · simp only [Option.map_eq_some_iff, Prod.mk.injEq] at h
    obtain ⟨_, _, _, same⟩ := h
    simp only [← same, List.length_cons]
    omega
  · split at h
    · simp only [Option.some.injEq, Prod.mk.injEq] at h
      simp [← h.2]
    · simp at h
  · simp at h

/-- Reads a quoted text from after its opening quote up to its closing quote. -/
def readText? (source : Text) : Option (Text × Text) :=
  match source with
  | '"' :: rest => some ([], rest)
  | source =>
      match h : readCharacter? source with
      | none => none
      | some (c, rest) =>
          have := readCharacter?_shorter h
          (readText? rest).map fun (decoded, left) => (c :: decoded, left)
termination_by source.length
decreasing_by assumption

theorem readText?_shorter {source decoded left : Text}
    (h : readText? source = some (decoded, left)) : left.length < source.length := by
  fun_induction readText? source generalizing decoded left with
  | case1 rest =>
      simp only [Option.some.injEq, Prod.mk.injEq] at h
      simp [← h.2]
  | case2 => simp at h
  | case3 source _ c rest first shorter ih =>
      simp only [Option.map_eq_some_iff, Prod.mk.injEq] at h
      obtain ⟨⟨more, tail⟩, read, _, same⟩ := h
      have same : tail = left := same
      have bounded := ih read
      rw [← same]
      omega

/-- Splits the first token off a text which does not start with a blank. -/
def read? : Text → Option (Token × Text)
  | '[' :: rest => some (openList, rest)
  | ']' :: rest => some (closeList, rest)
  | '\x7b' :: rest => some (openMap, rest)
  | '\x7d' :: rest => some (closeMap, rest)
  | ',' :: rest => some (comma, rest)
  | ':' :: rest => some (colon, rest)
  | '"' :: rest => (readText? rest).map fun (decoded, left) => (text decoded, left)
  | 'n' :: 'u' :: 'l' :: 'l' :: rest => some (value .null, rest)
  | 't' :: 'r' :: 'u' :: 'e' :: rest => some (value (.bool true), rest)
  | 'f' :: 'a' :: 'l' :: 's' :: 'e' :: rest => some (value (.bool false), rest)
  | source => do
      let (numeral, left) ← Numeral.ofText? source
      return (value (← numeral.value?), left)

/-- A token takes at least one character. -/
theorem read?_shorter {source left : Text} {token : Token}
    (h : read? source = some (token, left)) : left.length < source.length := by
  unfold read? at h
  split at h
  case h_7 =>
    simp only [Option.map_eq_some_iff, Prod.mk.injEq] at h
    obtain ⟨⟨decoded, tail⟩, read, _, same⟩ := h
    have := readText?_shorter read
    simp only [List.length_cons, ← same]
    omega
  case h_11 =>
    simp only [Option.bind_eq_bind, Option.bind_eq_some_iff] at h
    obtain ⟨⟨numeral, tail⟩, read, _, _, same⟩ := h
    have same : tail = left := congrArg Prod.snd (Option.some.inj same)
    exact same ▸ Numeral.ofText?_shorter read
  all_goals
    simp only [Option.some.injEq, Prod.mk.injEq] at h
    simp only [List.length_cons, ← h.2]
    omega

/-- Splits a whole text into tokens. -/
def lex? (source : Text) : Option (List Token) :=
  match source with
  | [] => some []
  | c :: rest =>
      if isBlank c then lex? rest
      else
        match h : read? (c :: rest) with
        | none => none
        | some (token, left) =>
            have := read?_shorter h
            (lex? left).map (token :: ·)
termination_by source.length
decreasing_by
  · exact Nat.lt_succ_self _
  · assumption

end Token

end Criteria.Json
