import Criteria.Proofs.Comparison.Acceptance
import Criteria.Proofs.Layout

/-!
How a comparison is spelled. Its text is split at the comparator into the texts of its
operands, so a comparison is known by its operands, their values and its operation.
With the parsers which every script may use the operands are sealed, and then the two
operands can be written again around any other comparator.
-/

namespace Criteria

/-- A text that is not empty and has no blanks around it, and of which no mark can be
seen. -/
structure Text.Solid (text : Text) : Prop where
  nonempty : text ≠ []
  startsFull : text.StartsFull
  endsFull : text.EndsFull
  isSealed : text.Sealed

/-- A text which starts with a solid one cannot be mistaken for a group. -/
theorem Text.Solid.fragment {left text : Text} (hleft : Text.Solid left) (hstart : left <+: text)
    (hend : text.EndsFull) (h : Text.Hides Text.joints text) : Fragment text := by
  obtain ⟨more, rfl⟩ := hstart
  obtain ⟨c, rest, rfl⟩ := List.exists_cons_of_ne_nil hleft.nonempty
  have hmark : c ∉ Text.marks := hleft.isSealed.avoids.1 rfl
  refine ⟨by simp, hleft.startsFull.append hleft.nonempty more, hend, ⟨?_, ?_⟩, ?_, ?_⟩
  · rintro ⟨⟩
    exact hmark (by decide)
  · rintro ⟨⟩
    exact hmark (by decide)
  · apply h.avoids.imp
    rintro c rfl
    decide
  · exact h.avoids.clear (by simp [Connective.tokens, Connective.token, Text.joints]) []

/-- What the parsers which every script may use recognize is solid when it is trimmed. -/
theorem Registry.solid_of_mem_builtin {parser : OperandParser} (hparser : parser ∈ builtin)
    {text : Text} {operand : Operand} (h : parser.Recognizes text operand)
    (htrim : Text.trim text = text) : text.Solid :=
  ⟨ne_nil_of_mem_builtin hparser h, htrim ▸ Text.startsFull_trim text,
    htrim ▸ Text.endsFull_trim text, ((builtin_settled parser hparser text).writtenAs h).2⟩

theorem Registry.Selects.solid {text : Text} {index : Nat} {operand : Operand}
    (h : Selects text builtin index operand) (htrim : Text.trim text = text) : text.Solid := by
  obtain ⟨parser, hparser, hoperand⟩ := h.exists_mem
  exact solid_of_mem_builtin hparser hoperand htrim

theorem Text.IsOperand.solid {text : Text} (h : text.IsOperand) : text.Solid := by
  obtain ⟨parser, hparser, operand, hoperand⟩ := h.recognized.exists_mem Registry.builtin_settled
  exact Registry.solid_of_mem_builtin hparser hoperand h.trimmed

namespace Comparison

variable {text left token right : Text} {position : Nat} {registry : Registry} {context : Context}
  {shape : Text → Prop} {comparison : Comparison} {i j : Nat} {first second : Option Scalar}

theorem isBlank_of_mem_comparator :
    ∀ token ∈ Operation.comparators, ∀ c ∈ token, Text.isBlank c = false := by
  simp [Operation.comparators, Text.isBlank]

theorem exists_of_split? (h : split? text = some (left, token, right)) :
    ∃ before after, text = before ++ (token ++ after) ∧ left = Text.trim before ∧
      right = Text.trim after ∧ token ∈ Operation.comparators := by
  unfold split? at h
  split at h
  · next before found after hsplit =>
    obtain ⟨rfl, rfl, rfl⟩ : Text.trim before = left ∧ found = token ∧ Text.trim after = right := by
      simpa using h
    obtain ⟨hwhole, -, hvisible⟩ := Lexeme.splitAtToken_eq_some hsplit
    exact ⟨before, after, hwhole, rfl, rfl, (Lexeme.visibleToken?_eq_some hvisible).2.1⟩
  · simp at h

/-- The operands of the comparison, as the registry selects them, and their values in
the context fit its operation. -/
structure Reads (registry : Registry) (context : Context) (comparison : Comparison) (i j : Nat)
    (first second : Option Scalar) : Prop where
  left : Registry.Selects comparison.left.source registry i comparison.left
  right : Registry.Selects comparison.right.source registry j comparison.right
  leftValue : comparison.left.value? context = .ok first
  rightValue : comparison.right.value? context = .ok second
  decided : comparison.operation ≠ .undecided
  fits : comparison.operation.Fits context.collation first second

theorem reads_of_parse (hregistry : registry.Settled shape)
    (h : parse text position registry context = .ok comparison) :
    ∃ token i j first second,
      split? text = some (comparison.left.source, token, comparison.right.source) ∧
        comparison.Reads registry context i j first second ∧
        comparison.operation = Operation.meaning (preferred i j first second) token := by
  obtain ⟨left, token, right, resolved, hsplit, hresolve, hvalid, rfl⟩ := parse_eq_ok_iff.mp h
  obtain ⟨_, _, _, _, _, htoken⟩ := exists_of_split? hsplit
  obtain ⟨i, j, first, second, ha, hb, hfirst, hsecond, hop, hdecided, hfits⟩ :=
    (accepts_iff hregistry htoken).mp ⟨hresolve, hvalid⟩
  have hleft := (ha.writtenAs hregistry).1.source_eq
  have hright := (hb.writtenAs hregistry).1.source_eq
  subst hleft
  subst hright
  exact ⟨token, i, j, first, second, hsplit, ⟨ha, hb, hfirst, hsecond, hdecided, hfits⟩, hop⟩

/-- A text around whose comparator the operands stand is read as the comparison exactly
when the comparator means its operation. -/
theorem Reads.parse_eq_ok_iff (h : comparison.Reads registry context i j first second)
    (hregistry : registry.Settled shape)
    (hsplit : split? text = some (comparison.left.source, token, comparison.right.source))
    (htext : Text.trim text = comparison.text) :
    parse text position registry context = .ok comparison ↔
      comparison.operation = Operation.meaning (preferred i j first second) token := by
  constructor
  · intro hparse
    obtain ⟨token', i', j', first', second', hsplit', h', hop⟩ := reads_of_parse hregistry hparse
    obtain ⟨-, rfl, -⟩ : comparison.left.source = comparison.left.source ∧ token = token' ∧
        comparison.right.source = comparison.right.source := by
      simpa using hsplit.symm.trans hsplit'
    obtain ⟨rfl, -⟩ := h.left.unique h'.left
    obtain ⟨rfl, -⟩ := h.right.unique h'.right
    obtain rfl := Except.ok.inj (h.leftValue.symm.trans h'.leftValue)
    obtain rfl := Except.ok.inj (h.rightValue.symm.trans h'.rightValue)
    exact hop
  · intro hop
    obtain ⟨_, _, _, _, _, htoken⟩ := exists_of_split? hsplit
    let resolved : Resolved :=
      { left := comparison.left, right := comparison.right, operation := comparison.operation }
    have haccepted : resolve comparison.left.source token comparison.right.source registry context =
        .ok resolved ∧ resolved.isValid context = .ok true :=
      (accepts_iff hregistry htoken).mpr ⟨i, j, first, second, h.left, h.right, h.leftValue,
        h.rightValue, hop, h.decided, h.fits⟩
    refine Comparison.parse_eq_ok_iff.mpr
      ⟨_, _, _, _, hsplit, haccepted.1, haccepted.2, ?_⟩
    rw [htext]

/-! Operands which hide their marks -/

theorem hides_joints_token (h : token ∈ Operation.comparators) : Text.Hides Text.joints token := by
  apply Text.hides_of_forall
  revert h token
  simp [Operation.comparators, Text.joints]

theorem hides_joints_of_trim (h : Text.Sealed (Text.trim text)) : Text.Hides Text.joints text := by
  obtain ⟨lead, trail, hlead, htrail, hsplit⟩ := Text.exists_append_trim_append text
  rw [hsplit]
  exact Text.Sealed.hides_joints
    (((Text.sealed_of_blank hlead).append h).append (Text.sealed_of_blank htrail))

/-- No connective and no parenthesis is seen in a comparison of sealed operands. -/
theorem hides_joints_of_parse (hregistry : registry.Settled Text.Sealed)
    (h : parse text position registry context = .ok comparison) : Text.Hides Text.joints text := by
  obtain ⟨token, i, j, first, second, hsplit, hreads, -⟩ := reads_of_parse hregistry h
  obtain ⟨before, after, rfl, hleft, hright, htoken⟩ := exists_of_split? hsplit
  have hbefore := hides_joints_of_trim (hleft ▸ (hreads.left.writtenAs hregistry).2)
  have hafter := hides_joints_of_trim (hright ▸ (hreads.right.writtenAs hregistry).2)
  exact hbefore.append ((hides_joints_token htoken).append hafter)

/-! A comparator between two texts -/

/-- A comparator between two texts, with one blank on either side. -/
def written (left token right : Text) : Text :=
  left ++ ' ' :: token ++ ' ' :: right

theorem text_invert (comparison : Comparison) : comparison.invert.text =
    written comparison.left.source comparison.operation.invert.token comparison.right.source :=
  rfl

variable {op : Operation}

theorem token_mem_comparators (h : op ≠ .undecided) : op.token ∈ Operation.comparators := by
  cases op <;> first | decide | exact absurd rfl h

/-- A comparator written between the texts is where they are split: there are no blanks
around them, and in the left one no comparator is seen and all quotes are closed. -/
structure Joinable (left right : Text) : Prop where
  clear : Lexeme.Clear Operation.comparators .outside left []
  closed : Quoting.outside.run left = .outside
  leftTrimmed : Text.trim left = left
  rightTrimmed : Text.trim right = right

theorem Joinable.split?_written (h : Joinable left right) (htoken : token ∈ Operation.comparators) :
    split? (written left token right) = some (left, token, right) := by
  have hblank : Text.Blank [' '] := Text.blank_space
  have hclear : Lexeme.Clear Operation.comparators .outside (left ++ [' '])
      (token ++ ' ' :: right) :=
    h.clear.append_blank isBlank_of_mem_comparator hblank (by simp) _
  have hvisible : Lexeme.visibleToken? Operation.comparators
      (Quoting.outside.run (left ++ [' '])) (token ++ ' ' :: right) = some token := by
    rw [Quoting.run_append, h.closed]
    exact Operation.visibleToken?_of_tokenAt? (Operation.tokenAt?_append htoken (by simp))
  have hwhole : written left token right = (left ++ [' ']) ++ (token ++ ' ' :: right) := by
    simp [written]
  rw [split?, hwhole, Lexeme.splitAtToken_of_token hclear hvisible]
  simp only [Text.trim_append_blank hblank, h.leftTrimmed]
  rw [← List.singleton_append, Text.trim_blank_append hblank, h.rightTrimmed]

theorem Joinable.of_solid (hleft : Text.Solid left) (hright : Text.Solid right) :
    Joinable left right where
  clear := hleft.isSealed.avoids.clear (by simp [Operation.comparators, Text.marks]) []
  closed := hleft.isSealed.closed
  leftTrimmed := Text.trim_of_full hleft.startsFull hleft.endsFull
  rightTrimmed := Text.trim_of_full hright.startsFull hright.endsFull

/-- Where a text is split once, another comparator can be written. -/
theorem joinable_of_split? (h : split? text = some (left, token, right)) :
    Joinable left right := by
  unfold split? at h
  split at h
  · next before found after hsplit =>
    obtain ⟨rfl, rfl, rfl⟩ : Text.trim before = left ∧ found = token ∧ Text.trim after = right := by
      simpa using h
    obtain ⟨-, hclear, hvisible⟩ := Lexeme.splitAtToken_eq_some hsplit
    obtain ⟨lead, trail, hlead, htrail, hparts⟩ := Text.exists_append_trim_append before
    have hopen : Quoting.outside.run lead = .outside := (Text.sealed_of_blank hlead).closed
    have hclosed := (Lexeme.visibleToken?_eq_some hvisible).1
    rw [hparts, List.append_assoc, Quoting.run_append, hopen, Quoting.run_append] at hclosed
    rw [hparts, List.append_assoc, Lexeme.clear_append_iff, hopen,
      Lexeme.clear_append_iff] at hclear
    exact ⟨hclear.2.1.alone, Lexeme.run_of_blank_eq_outside htrail hclosed, Text.trim_trim _,
      Text.trim_trim _⟩
  · simp at h

/-! Blanks around a text have no part in how it is split -/

section

variable {lead trail : Text}

theorem split?_blank_append (h : lead.Blank) (text : Text) :
    split? (lead ++ text) = split? text := by
  have hclear : Lexeme.Clear Operation.comparators .outside lead text :=
    Lexeme.clear_of_blank isBlank_of_mem_comparator h text
  unfold split?
  rw [Lexeme.splitAtToken_append_of_clear hclear (Text.sealed_of_blank h).closed]
  rcases Lexeme.splitAtToken Operation.comparators text with ⟨before, _ | token, after⟩
  · rfl
  · simp only [Text.trim_blank_append h]

theorem split?_append_blank (h : trail.Blank) (text : Text) :
    split? (text ++ trail) = split? text := by
  cases trail with
  | nil => rw [List.append_nil]
  | cons c more =>
      have hmark : ∀ token ∈ Operation.comparators, c ∉ token := by
        intro token htoken hmem
        have hplain := isBlank_of_mem_comparator token htoken c hmem
        rw [h c List.mem_cons_self] at hplain
        cases hplain
      unfold split?
      rcases hsplit : Lexeme.splitAtToken Operation.comparators text with
        ⟨before, _ | token, after⟩
      · obtain ⟨rfl, rfl, hclear⟩ := Lexeme.splitAtToken_eq_none hsplit
        rw [Lexeme.splitAtToken_of_clear
          (hclear.append_blank isBlank_of_mem_comparator h (by simp) [])]
      · rw [Lexeme.splitAtToken_append_mark hmark hsplit]
        simp only [Text.trim_append_blank h]

theorem split?_trim (text : Text) : split? (Text.trim text) = split? text := by
  obtain ⟨lead, trail, hlead, htrail, hparts⟩ := Text.exists_append_trim_append text
  conv_rhs => rw [hparts, split?_append_blank htrail, split?_blank_append hlead]

end

/-! Solid texts around a comparator stand for a comparison -/

theorem hides_joints_written (hleft : Text.Solid left) (hright : Text.Solid right)
    (htoken : token ∈ Operation.comparators) :
    Text.Hides Text.joints (written left token right) := by
  have hblank : Text.Hides Text.joints [' '] :=
    (Text.sealed_of_blank Text.blank_space).hides_joints
  have hparts := hleft.isSealed.hides_joints.append (hblank.append
    ((hides_joints_token htoken).append (hblank.append hright.isSealed.hides_joints)))
  simpa [written] using hparts

theorem fragment_written (hleft : Text.Solid left) (hright : Text.Solid right)
    (htoken : token ∈ Operation.comparators) : Fragment (written left token right) := by
  refine hleft.fragment ?_ ?_ (hides_joints_written hleft hright htoken)
  · rw [written, List.append_assoc]
    exact List.prefix_append _ _
  · have hwhole : written left token right = left ++ ' ' :: token ++ [' '] ++ right := by
      simp [written]
    rw [hwhole]
    exact hright.endsFull.append hright.nonempty _

end Comparison

end Criteria
