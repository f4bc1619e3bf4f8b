import Criteria.Json.Token

/-!
Reading JSON texts. The tokens are taken one by one; what is still open is kept
as a stack of frames, innermost first, and its height is the depth of nesting.
-/

namespace Criteria.Json

/-- A list or map which is still open, with what it holds so far in reverse
order. A map waits for the value of `key`. -/
inductive Frame where
  | list (items : List Json)
  | map (members : List (Text × Json)) (key : Text)

/-- What may come next. -/
inductive Reader where
  | beforeValue (stack : List Frame)
  | beforeFirstItem (stack : List Frame)
  | beforeKey (members : List (Text × Json)) (stack : List Frame)
  | beforeFirstKey (stack : List Frame)
  | beforeColon (members : List (Text × Json)) (key : Text) (stack : List Frame)
  | afterValue (value : Json) (stack : List Frame)

namespace Reader

/-- Lists and maps may be nested up to this depth. -/
def maxDepth : Nat := 127

/-- Takes a token with which a value starts. -/
def start? (stack : List Frame) : Token → Option Reader
  | .text value => some (.afterValue (.text value) stack)
  | .value value => some (.afterValue value stack)
  | .openList => if stack.length < maxDepth then some (.beforeFirstItem stack) else none
  | .openMap => if stack.length < maxDepth then some (.beforeFirstKey stack) else none
  | _ => none

/-- Takes the next token. -/
def step? : Reader → Token → Option Reader
  | .beforeValue stack, token => start? stack token
  | .beforeFirstItem stack, .closeList => some (.afterValue (.list []) stack)
  | .beforeFirstItem stack, token => start? (.list [] :: stack) token
  | .beforeFirstKey stack, .closeMap => some (.afterValue (.map []) stack)
  | .beforeFirstKey stack, .text key => some (.beforeColon [] key stack)
  | .beforeKey members stack, .text key => some (.beforeColon members key stack)
  | .beforeColon members key stack, .colon => some (.beforeValue (.map members key :: stack))
  | .afterValue item (.list items :: stack), .comma =>
      some (.beforeValue (.list (item :: items) :: stack))
  | .afterValue item (.list items :: stack), .closeList =>
      some (.afterValue (.list (item :: items).reverse) stack)
  | .afterValue item (.map members key :: stack), .comma =>
      some (.beforeKey ((key, item) :: members) stack)
  | .afterValue item (.map members key :: stack), .closeMap =>
      some (.afterValue (.map ((key, item) :: members).reverse) stack)
  | _, _ => none

def run? (reader : Reader) (tokens : List Token) : Option Reader :=
  tokens.foldlM step? reader

end Reader

/-- Reads a whole text as one JSON value. -/
def read? (source : Text) : Option Json := do
  let tokens ← Token.lex? source
  match ← (Reader.beforeValue []).run? tokens with
  | .afterValue value [] => some value
  | _ => none

end Criteria.Json
