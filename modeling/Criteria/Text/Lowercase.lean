import Criteria.Text
import Criteria.Text.Lowercase.Table

/-!
Lower-casing of whole texts. Each character is replaced by its lower-case form,
which depends on its neighbours in one case only: a capital sigma at the end of
a word becomes `ς`, anywhere else `σ`.
-/

namespace Criteria.Text

namespace Lowercase

/-- The lower-case form of a code point in the run. -/
def Run.apply? (run : Run) (n : Nat) : Option Nat :=
  if run.first ≤ n && n ≤ run.last && (n - run.first) % run.step == 0 then
    some (run.target + (n - run.first))
  else
    none

/-- The lower-case form of one character, whatever stands beside it. Only `İ`
has a form of two characters. -/
def single (c : Char) : Text :=
  if c = 'İ' then ['i', '\u0307']
  else
    match runs.findSome? (fun run => run.apply? c.toNat) with
    | some n => [Char.ofNat n]
    | none => [c]

def inRanges (ranges : List (Nat × Nat)) (c : Char) : Bool :=
  ranges.any fun (first, last) => first ≤ c.toNat && c.toNat ≤ last

def isCased (c : Char) : Bool :=
  inRanges casedRanges c

def isCaseIgnorable (c : Char) : Bool :=
  inRanges caseIgnorableRanges c

/-- Whether the first character that is not passed over is a cased letter. -/
def meetsCased (text : Text) : Bool :=
  match text.dropWhile isCaseIgnorable with
  | c :: _ => isCased c
  | [] => false

/-- Lower-cases a text which stands after `before`, given in reverse order. -/
def after : (before : Text) → Text → Text
  | _, [] => []
  | before, c :: rest =>
      let form :=
        if c = 'Σ' then
          if meetsCased before && !meetsCased rest then ['ς'] else ['σ']
        else
          single c
      form ++ after (c :: before) rest

end Lowercase

def lowercase (text : Text) : Text :=
  Lowercase.after [] text

end Criteria.Text
