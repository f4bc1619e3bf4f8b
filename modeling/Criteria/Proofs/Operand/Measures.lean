import Criteria.Operand.Builtin
import Criteria.Operand.Measures
import Criteria.Proofs.Operand.Recognition

/-!
Percentages and lengths are settled by their texts like the operands that every script
may use, but a length may hold anything behind its number sign, also a comparator or an
open quote. So nothing is said here about the shape of what these parsers recognize.
-/

namespace Criteria

namespace OperandParser

theorem Settles.mono {parser : OperandParser} {shape other : Text → Prop} {text : Text}
    (h : parser.Settles shape text) (himp : shape text → other text) :
    parser.Settles other text := by
  cases h with
  | passes h => exact .passes h
  | refuses error h => exact .refuses error h
  | recognizes operand h hwritten hshape => exact .recognizes operand h hwritten (himp hshape)

theorem percent_settles (text : Text) : percent.Settles (fun _ => True) text := by
  by_cases hsign : text.getLast? = some '%'
  · cases hnumber : Number.read? (Text.trim text.dropLast) with
    | none =>
        apply settles_of_refuse (.script (.other .unrecognizedRight (badPercentage text)))
        intro token context
        rw [readPercent, if_pos hsign, hnumber]
    | some value =>
        apply settles_of_literal (.number (value.div (.ofNat 100))) trivial
        intro token context
        rw [readPercent, if_pos hsign, hnumber]
        rfl
  · apply settles_of_pass
    intro token context
    rw [readPercent, if_neg hsign]

theorem length_settles (text : Text) : length.Settles (fun _ => True) text := by
  by_cases hsign : ∃ measured, text = '#' :: measured
  · obtain ⟨measured, rfl⟩ := hsign
    exact settles_of_literal (.number (.ofNat measured.length)) trivial fun _ _ => rfl
  · apply settles_of_pass
    intro token context
    unfold readLength
    split
    · next measured => exact absurd ⟨measured, rfl⟩ hsign
    · rfl

end OperandParser

namespace Registry

/-- All parsers of the library. -/
def full : Registry :=
  builtin ++ [.percent, .length]

/-- What a registry of parsers of the library recognizes is decided by the text. -/
theorem settled_of_subset {registry : Registry} (h : registry ⊆ full) :
    registry.Settled fun _ => True := by
  intro parser hparser text
  rcases List.mem_append.mp (h hparser) with hbuiltin | hmeasure
  · exact (builtin_settled parser hbuiltin text).mono fun _ => trivial
  · simp only [List.mem_cons, List.not_mem_nil, or_false] at hmeasure
    rcases hmeasure with rfl | rfl
    · exact OperandParser.percent_settles text
    · exact OperandParser.length_settles text

end Registry

end Criteria
