/-!
Text as the list of its characters. Positions in a text are counted in the
bytes of its UTF-8 encoding, so a position always falls between two characters
when it is the byte length of an initial part.
-/

namespace Criteria

abbrev Text := List Char

namespace Text

/-- The length of the UTF-8 encoding. -/
def byteLength : Text → Nat
  | [] => 0
  | c :: rest => c.utf8Size + byteLength rest

@[simp] theorem byteLength_nil : byteLength [] = 0 := rfl

@[simp] theorem byteLength_cons (c : Char) (rest : Text) :
    byteLength (c :: rest) = c.utf8Size + byteLength rest := rfl

@[simp] theorem byteLength_append (a b : Text) :
    byteLength (a ++ b) = byteLength a + byteLength b := by
  induction a with
  | nil => simp
  | cons c rest ih => simp [ih, Nat.add_assoc]

/-- The characters with the Unicode property White_Space. -/
def isBlank (c : Char) : Bool :=
  let n := c.toNat
  (0x9 ≤ n && n ≤ 0xD) || n == 0x20 || n == 0x85 || n == 0xA0 || n == 0x1680 ||
    (0x2000 ≤ n && n ≤ 0x200A) || n == 0x2028 || n == 0x2029 || n == 0x202F ||
    n == 0x205F || n == 0x3000

def skipBlanks (text : Text) : Text :=
  text.dropWhile isBlank

/-- The text without the blanks at its end. -/
def trimEnd : Text → Text
  | [] => []
  | c :: rest =>
      match trimEnd rest with
      | [] => if isBlank c then [] else [c]
      | kept => c :: kept

/-- The text without the blanks at both ends. -/
def trim (text : Text) : Text :=
  trimEnd (skipBlanks text)

/-- Whether `part` stands somewhere inside the text. -/
def includes (text part : Text) : Bool :=
  match text with
  | [] => part.isEmpty
  | _ :: rest => part.isPrefixOf text || includes rest part

theorem includes_iff (text part : Text) : includes text part = true ↔ part <:+: text := by
  induction text with
  | nil => simp [includes]
  | cons c rest ih =>
      have split : part <:+: c :: rest ↔ part <+: c :: rest ∨ part <:+: rest :=
        List.infix_cons_iff
      simp [includes, ih, split]

/-- The decimal digits of a whole number. -/
def ofNat (n : Nat) : Text :=
  Nat.toDigits 10 n

/-- The texts written one after the other with `separator` between them. -/
def join (separator : Text) : List Text → Text
  | [] => []
  | [text] => text
  | text :: more => text ++ separator ++ join separator more

end Text

end Criteria
