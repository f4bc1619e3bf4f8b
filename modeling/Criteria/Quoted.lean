import Criteria.Text

/-!
Double-quoted literals. Inside a literal a backslash takes the next character
with it, so an escaped quote does not close the literal. `Quoting` says where a
position stands, `encode` writes a literal and `decode?` reads one back.
-/

namespace Criteria

/-- Where a position of a text stands relative to its double-quoted literals. -/
inductive Quoting where
  | outside
  | inside
  | escaped
deriving DecidableEq, Repr

namespace Quoting

/-- The place after one more character. -/
def next : Quoting → Char → Quoting
  | .outside, c => if c = '"' then .inside else .outside
  | .inside, c => if c = '"' then .outside else if c = '\\' then .escaped else .inside
  | .escaped, _ => .inside

/-- The place after a text. -/
def run (q : Quoting) (text : Text) : Quoting :=
  text.foldl next q

@[simp] theorem run_nil (q : Quoting) : q.run [] = q := rfl

@[simp] theorem run_cons (q : Quoting) (c : Char) (rest : Text) :
    q.run (c :: rest) = (q.next c).run rest := rfl

@[simp] theorem run_append (q : Quoting) (a b : Text) :
    q.run (a ++ b) = (q.run a).run b := by
  simp [run]

end Quoting

namespace Quoted

/-- The body of a literal: backslashes and quotes are escaped. -/
def escape : Text → Text
  | [] => []
  | c :: rest => if c = '"' ∨ c = '\\' then '\\' :: c :: escape rest else c :: escape rest

/-- The literal which denotes a text. -/
def encode (text : Text) : Text :=
  '"' :: escape text ++ ['"']

/-- What a backslash and the character after it denote. A pair without a
meaning of its own denotes both its characters. -/
def unescape : Char → Text
  | 'n' => ['\n']
  | 't' => ['\t']
  | 'r' => ['\r']
  | '\\' => ['\\']
  | '"' => ['"']
  | c => ['\\', c]

/-- Reads a literal from after its opening quote up to its closing quote: the
text denoted and what follows. `none` when the literal never closes. -/
def decodeBody? : Text → Option (Text × Text)
  | [] => none
  | '"' :: rest => some ([], rest)
  | '\\' :: c :: rest => (decodeBody? rest).map fun (value, left) => (unescape c ++ value, left)
  | c :: rest =>
      if c = '\\' then none
      else (decodeBody? rest).map fun (value, left) => (c :: value, left)

/-- Reads the literal at the start of a text. -/
def decode? : Text → Option (Text × Text)
  | '"' :: rest => decodeBody? rest
  | _ => none

theorem decodeBody?_shorter {source value left : Text}
    (h : decodeBody? source = some (value, left)) : left.length < source.length := by
  fun_induction decodeBody? source generalizing value with
  | case1 => simp at h
  | case2 rest =>
      obtain ⟨_, rfl⟩ := Prod.mk.inj (Option.some.inj h)
      simp
  | case3 c rest ih =>
      obtain ⟨⟨more, tail⟩, found, same⟩ := Option.map_eq_some_iff.mp h
      obtain ⟨_, rfl⟩ := Prod.mk.inj same
      have bound := ih found
      simp only [List.length_cons]
      omega
  | case4 => simp at h
  | case5 c rest _ _ _ ih =>
      obtain ⟨⟨more, tail⟩, found, same⟩ := Option.map_eq_some_iff.mp h
      obtain ⟨_, rfl⟩ := Prod.mk.inj same
      have bound := ih found
      simp only [List.length_cons]
      omega

theorem decode?_shorter {source value left : Text}
    (h : decode? source = some (value, left)) : left.length < source.length := by
  unfold decode? at h
  split at h
  · have bound := decodeBody?_shorter h
    simp only [List.length_cons]
    omega
  · simp at h

theorem decodeBody?_escape (text rest : Text) :
    decodeBody? (escape text ++ '"' :: rest) = some (text, rest) := by
  induction text with
  | nil => rfl
  | cons c more ih =>
      by_cases quote : c = '"'
      · subst quote
        simp [escape, decodeBody?, ih, unescape]
      · by_cases backslash : c = '\\'
        · subst backslash
          simp [escape, decodeBody?, ih, unescape]
        · simp [escape, quote, backslash, decodeBody?, ih]

theorem decode?_encode (text rest : Text) :
    decode? (encode text ++ rest) = some (text, rest) := by
  simpa [encode, decode?] using decodeBody?_escape text rest

end Quoted

end Criteria
