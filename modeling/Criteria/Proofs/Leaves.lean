import Criteria.Proofs.Comparison.Grounded

/-!
What holds of every comparison of a criterion. Comparisons come from texts that were read
in a context, and inverting makes new ones of them. Either way the text is split at the
comparator of the operation into the texts of the operands, and in the context both
operands can take part in the operation.
-/

namespace Criteria

variable {registry : Registry} {context : Context} {shape : Text → Prop}

theorem Scalar.eq_null_of_isNull {value : Scalar} (h : value.isNull = true) : value = .null := by
  cases value with
  | null => rfl
  | bool | number | text | list | map => cases h

namespace Comparison

variable {comparison : Comparison}

/-- The text is split at the comparator of the operation into those of the operands. -/
def Spelled (comparison : Comparison) : Prop :=
  split? comparison.text =
    some (comparison.left.source, comparison.operation.token, comparison.right.source)

/-- The comparison is one that could have been read in the context: there is an operation,
the text is split at its comparator into those of the operands, the left operand can take
part in the operation and the right one in the mirrored one, and values which are to be
ordered have an order unless one is null. -/
structure WellFormed (context : Context) (comparison : Comparison) : Prop where
  decided : comparison.operation ≠ .undecided
  spelled : comparison.Spelled
  allowsLeft : comparison.left.allows comparison.operation context = .ok true
  allowsRight : comparison.right.allows comparison.operation.mirror context = .ok true
  ordered : comparison.operation.isOrdering = true →
    ∃ left right, comparison.left.resolve context = .ok left ∧
      comparison.right.resolve context = .ok right ∧
      (left = .null ∨ right = .null ∨ ∃ order, left.compare context.collation right = some order)

theorem spelled_of_parse (hregistry : registry.Settled shape) {text : Text} {position : Nat}
    (h : parse text position registry context = .ok comparison) : comparison.Spelled := by
  obtain ⟨token, _, _, _, _, hsplit, hreads, hop⟩ := reads_of_parse hregistry h
  obtain ⟨_, _, _, _, _, htoken⟩ := exists_of_split? hsplit
  have hdecided := hreads.decided
  rw [hop] at hdecided
  rw [Spelled, text_of_parse h, split?_trim, hsplit, hop, Operation.token_meaning htoken hdecided]

/-- No comparator is seen in the left operand, so that of the inverse is the first one. -/
theorem Spelled.invert (h : comparison.Spelled) (hdecided : comparison.operation ≠ .undecided) :
    comparison.invert.Spelled := by
  have htoken := token_mem_comparators (Operation.invert_ne_undecided hdecided)
  rw [Spelled, text_invert]
  exact (joinable_of_split? h).split?_written htoken

/-- What is known of a comparison that was read in the context, and of its inverse. Unlike
being well formed it says where the values come from, so that inverting keeps it. -/
structure Established (context : Context) (comparison : Comparison) : Prop where
  spelled : comparison.Spelled
  grounded : ∃ first second, comparison.Grounded context first second

theorem established_of_parse (hregistry : registry.Settled shape) {text : Text} {position : Nat}
    (h : parse text position registry context = .ok comparison) :
    comparison.Established context :=
  ⟨spelled_of_parse hregistry h, grounded_of_parse hregistry h⟩

theorem Established.invert (h : comparison.Established context) :
    comparison.invert.Established context := by
  obtain ⟨hspelled, first, second, hgrounded⟩ := h
  exact ⟨hspelled.invert hgrounded.decided, first, second, hgrounded.invert⟩

theorem Established.wellFormed (h : comparison.Established context) :
    comparison.WellFormed context := by
  obtain ⟨hspelled, first, second, hgrounded⟩ := h
  have hfits := hgrounded.fits
  refine ⟨hgrounded.decided, hspelled, ?_, ?_, fun hordering => ?_⟩
  · rw [Operand.allows_eq hgrounded.leftOwn, hgrounded.leftValue, Except.ok_map, hfits.allowsLeft]
  · rw [Operand.allows_eq hgrounded.rightOwn, hgrounded.rightValue, Except.ok_map,
      hfits.allowsRight]
  · refine ⟨first.getD .null, second.getD .null, ?_, ?_, ?_⟩
    · rw [Operand.resolve_eq hgrounded.leftOwn, hgrounded.leftValue, Except.ok_map]
    · rw [Operand.resolve_eq hgrounded.rightOwn, hgrounded.rightValue, Except.ok_map]
    · have hordered := hfits.ordered hordering
      rw [Bool.or_eq_true, Bool.or_eq_true, Option.isSome_iff_exists, or_assoc] at hordered
      exact hordered.imp Scalar.eq_null_of_isNull (Or.imp Scalar.eq_null_of_isNull id)

end Comparison

namespace Criterion

/-- What inverting, joining and expanding make of criteria. Expanding joins one more
criterion to the end of a chain. -/
inductive MadeFrom (source : Criterion → Prop) : Criterion → Prop
  | source {criterion : Criterion} (h : source criterion) : MadeFrom source criterion
  | invert {criterion : Criterion} (h : MadeFrom source criterion) :
      MadeFrom source criterion.invert
  | join {left right : Criterion} (hleft : MadeFrom source left) (connective : Connective)
      (hright : MadeFrom source right) : MadeFrom source (logic left connective right)
  | expand {left middle right : Criterion} {connective : Connective}
      (hchain : MadeFrom source (logic left connective middle)) (next : Connective)
      (hright : MadeFrom source right) :
      MadeFrom source (logic (logic left connective middle) next right)

/-- What holds of the comparisons of the sources, and of the inverse where it holds, holds
of all comparisons. -/
theorem MadeFrom.forall_leaves {source : Criterion → Prop} {P : Comparison → Prop}
    (hsource : ∀ criterion, source criterion → ∀ comparison ∈ criterion.leaves, P comparison)
    (hinvert : ∀ comparison : Comparison, P comparison → P comparison.invert)
    {criterion : Criterion} (h : criterion.MadeFrom source) :
    ∀ comparison ∈ criterion.leaves, P comparison := by
  induction h with
  | source h => exact hsource _ h
  | invert _ ih => exact forall_leaves_invert hinvert ih
  | join _ connective _ ihl ihr => exact List.forall_mem_append.mpr ⟨ihl, ihr⟩
  | expand _ next _ ihchain ihr => exact List.forall_mem_append.mpr ⟨ihchain, ihr⟩

/-- A script with this criterion was parsed in the context, with parsers of the
library. -/
def ParsedIn (context : Context) (criterion : Criterion) : Prop :=
  ∃ (registry : Registry) (text : Text) (given : Option Context) (script : Script),
    registry ⊆ .full ∧ given.getD .default = context ∧
    Script.parse registry text given = .ok script ∧ script.criterion = criterion

theorem ParsedIn.established {criterion : Criterion} (h : criterion.ParsedIn context) :
    ∀ comparison ∈ criterion.leaves, comparison.Established context := by
  obtain ⟨registry, text, given, script, hregistry, rfl, hparse, rfl⟩ := h
  obtain ⟨-, _, _, -, hbuild, rfl⟩ := Script.parse_eq_ok_iff.mp hparse
  have hsettled := Registry.settled_of_subset hregistry
  exact Clause.forall_leaves_of_build (fun _ _ _ => Comparison.established_of_parse hsettled)
    (fun _ => Comparison.Established.invert) hbuild

/-- All comparisons of what is made from scripts parsed in a context are well formed in
this context. -/
theorem wellFormed_of_madeFrom {criterion : Criterion}
    (h : criterion.MadeFrom (ParsedIn context)) :
    ∀ comparison ∈ criterion.leaves, comparison.WellFormed context := by
  have hestablished := h.forall_leaves (P := Comparison.Established context)
    (fun _ hparsed => hparsed.established) (fun _ hleaf => hleaf.invert)
  intro comparison hleaf
  exact (hestablished comparison hleaf).wellFormed

/-- A key ends in the sign that comparators start with, and a comparator stands in quotes.
Inverting writes both of them anew. -/
theorem wellFormed_of_madeFrom_inverted :
    let first := "#a= == 2 || level<50%".toList
    let second := "\"<\"<tags".toList
    let context : Context :=
      { values := [("a=".toList, .text ['x', 'y']), ("level".toList, .number (.ofNat 1)),
        ("tags".toList, .list [.text ['b']])] }
    ∃ left right, Script.parse .full first (some context) = .ok left ∧
      Script.parse .builtin second (some context) = .ok right ∧
      let criterion :=
        (logic (logic left.criterion .and right.criterion) .or right.criterion.invert).invert
      criterion.text =
        "#a= != 2 && level >= 50% || \"<\" !< tags && \"<\" < tags".toList ∧
      ∀ comparison ∈ criterion.leaves, comparison.WellFormed context := by
  intro first second context
  have hjoined : (do
      let left ← Script.parse .full first (some context)
      let right ← Script.parse .builtin second (some context)
      return (logic (logic left.criterion .and right.criterion) .or
        right.criterion.invert).invert.text) =
      .ok "#a= != 2 && level >= 50% || \"<\" !< tags && \"<\" < tags".toList := by
    decide +kernel
  obtain ⟨left, hleft, hrest⟩ := Except.bind_eq_ok_iff.mp hjoined
  obtain ⟨right, hright, htext⟩ := Except.bind_eq_ok_iff.mp hrest
  rw [Except.pure_eq_ok, Except.ok.injEq] at htext
  have hfirst : left.criterion.MadeFrom (ParsedIn context) :=
    .source ⟨.full, first, some context, left, List.Subset.refl _, rfl, hleft, rfl⟩
  have hsecond : right.criterion.MadeFrom (ParsedIn context) :=
    .source ⟨.builtin, second, some context, right, List.subset_append_left _ _, rfl, hright, rfl⟩
  exact ⟨left, right, hleft, hright, htext,
    wellFormed_of_madeFrom (((hfirst.join .and hsecond).expand .or hsecond.invert).invert)⟩

end Criterion

end Criteria
