import Criteria.Proofs.Layout.Coverage

/-!
Where the comparisons of a script stand. Every comparison that was read has a span of
the source to itself, and what is outside the spans are the marks which the tree of
clauses prescribes, and blanks. So the reader loses nothing of a text and puts nothing
into it.
-/

namespace Criteria

/-- A text at a place of a script. -/
structure Span where
  text : Text
  position : Nat
deriving DecidableEq, Repr

namespace Span

/-- The place behind the span. -/
def stop (span : Span) : Nat :=
  span.position + span.text.byteLength

def covers (span : Span) (position : Nat) : Bool :=
  span.position ≤ position && position < span.stop

/-- The bytes of the source at the span are its text. -/
def StandsIn (span : Span) (source : Text) : Prop :=
  ∃ before after, source = before ++ (span.text ++ after) ∧ before.byteLength = span.position

end Span

namespace Clause

/-- The comparisons of a clause from left to right. -/
def spans : Clause → List Span
  | comparison text position => [{ text, position }]
  | group _ inner => inner.spans
  | logic left _ right => left.spans ++ right.spans

/-- The marks which a clause prescribes around its comparisons. Each `none` is the
place of a comparison. -/
def outline : Clause → List (Option Char)
  | comparison _ _ => [none]
  | group negated inner =>
      (if negated then [some '!'] else []) ++ (some '(' :: (inner.outline ++ [some ')']))
  | logic left connective right =>
      left.outline ++ (connective.token.map some ++ right.outline)

/-- The right side of every connective is a comparison or a group. -/
def FoldsLeft : Clause → Prop
  | comparison _ _ => True
  | group _ inner => inner.FoldsLeft
  | logic left _ right => left.FoldsLeft ∧ right.FoldsLeft ∧ right.isLogic = false

end Clause

/-- What is seen of a text which stands at `position` when each span shows as `none` and
blanks do not show. -/
def Text.outline (spans : List Span) : (position : Nat) → Text → List (Option Char)
  | _, [] => []
  | position, c :: rest =>
      let after := outline spans (position + c.utf8Size) rest
      if spans.any (·.position = position) then none :: after
      else if spans.any (·.covers position) || isBlank c then after
      else some c :: after

namespace Span

/-- The span lies before `start` or behind `stop`. -/
def Apart (span : Span) (start stop : Nat) : Prop :=
  span.stop ≤ start ∨ stop ≤ span.position

theorem Apart.mono {span : Span} {start stop start' stop' : Nat} (h : span.Apart start stop)
    (hstart : start ≤ start') (hstop : stop' ≤ stop) : span.Apart start' stop' := by
  rcases h with hbefore | hbehind
  · exact .inl (hbefore.trans hstart)
  · exact .inr (hstop.trans hbehind)

end Span

namespace Text

variable {spans : List Span} {span : Span} {position : Nat} {text : Text}

theorem byteLength_pos (h : text ≠ []) : 0 < text.byteLength := by
  obtain ⟨c, rest, rfl⟩ := List.exists_cons_of_ne_nil h
  have hsize := c.utf8Size_pos
  rw [byteLength_cons]
  omega

theorem outline_append (a b : Text) :
    outline spans position (a ++ b) =
      outline spans position a ++ outline spans (position + a.byteLength) b := by
  induction a generalizing position with
  | nil => rfl
  | cons c rest ih =>
      simp only [List.cons_append, outline, ih, byteLength_cons, Nat.add_assoc]
      split
      · rfl
      · split <;> rfl

/-- Only the spans which touch a text bear on what is seen of it. -/
theorem outline_congr {wider : List Span} (position : Nat) (text : Text)
    (hfull : ∀ span ∈ wider, span.position < span.stop) (hsub : spans ⊆ wider)
    (hwider : ∀ span ∈ wider, span ∈ spans ∨ span.Apart position (position + text.byteLength)) :
    outline wider position text = outline spans position text := by
  induction text generalizing position with
  | nil => rfl
  | cons c rest ih =>
      have hsize := c.utf8Size_pos
      rw [byteLength_cons] at hwider
      have hrest := ih (position + c.utf8Size) fun span hspan =>
        (hwider span hspan).imp_right fun hapart => hapart.mono (by omega) (by omega)
      have hany {p : Span → Bool}
          (hp : ∀ span, p span = true → span.position ≤ position ∧
            (span.position < span.stop → position < span.stop)) : wider.any p = spans.any p := by
        rw [Bool.eq_iff_iff, List.any_eq_true, List.any_eq_true]
        constructor
        · rintro ⟨span, hspan, hhere⟩
          obtain ⟨hle, hlt⟩ := hp span hhere
          have hreach := hlt (hfull span hspan)
          rcases hwider span hspan with hmem | hbefore | hbehind
          · exact ⟨span, hmem, hhere⟩
          · omega
          · omega
        · rintro ⟨span, hspan, hhere⟩
          exact ⟨span, hsub hspan, hhere⟩
      have hstarts : (wider.any fun span => span.position = position) =
          spans.any fun span => span.position = position := by
        apply hany
        intro span hhere
        simp only [decide_eq_true_eq] at hhere
        omega
      have hcovers : (wider.any fun span => span.covers position) =
          spans.any fun span => span.covers position := by
        apply hany
        intro span hhere
        simp only [Span.covers, Bool.and_eq_true, decide_eq_true_eq] at hhere
        omega
      rw [outline, outline, hstarts, hcovers, hrest]

/-- Without spans everything but the blanks shows. -/
theorem outline_nil (position : Nat) (text : Text) :
    outline [] position text = (text.filter fun c => !isBlank c).map some := by
  induction text generalizing position with
  | nil => rfl
  | cons c rest ih =>
      rw [outline, ih]
      cases hblank : isBlank c with
      | false => simp [hblank]
      | true => simp [hblank]

theorem outline_of_apart (position : Nat) (text : Text)
    (hfull : ∀ span ∈ spans, span.position < span.stop)
    (h : ∀ span ∈ spans, span.Apart position (position + text.byteLength)) :
    outline spans position text = (text.filter fun c => !isBlank c).map some := by
  have hnone := outline_congr position text hfull (List.nil_subset spans)
    fun span hspan => .inr (h span hspan)
  rw [hnone, outline_nil]

/-- Two texts which each have their own spans, and a text without spans between them. -/
theorem outline_joined {left between right : Text} {first second : List Span}
    {joint start : Nat} (hfull : ∀ span ∈ first ++ second, span.position < span.stop)
    (hfirst : ∀ span ∈ first, span.stop ≤ joint) (hsecond : ∀ span ∈ second, start ≤ span.position)
    (hjoint : position + left.byteLength = joint) (hstart : joint + between.byteLength = start) :
    outline (first ++ second) position (left ++ (between ++ right)) =
      outline first position left ++
        ((between.filter fun c => !isBlank c).map some ++ outline second start right) := by
  have hbounds {span : Span} (hspan : span ∈ first ++ second) :
      span ∈ first ∧ span.stop ≤ joint ∨ span ∈ second ∧ start ≤ span.position :=
    (List.mem_append.mp hspan).imp (fun hmem => ⟨hmem, hfirst span hmem⟩)
      fun hmem => ⟨hmem, hsecond span hmem⟩
  have hleft := outline_congr position left hfull (List.subset_append_left _ _)
    fun span hspan => (hbounds hspan).imp And.left fun hmem => .inr (by omega)
  have hmiddle := outline_of_apart joint between hfull
    fun span hspan => (hbounds hspan).imp And.right fun hmem => by omega
  have hright := outline_congr start right hfull (List.subset_append_right _ _)
    fun span hspan => (hbounds hspan).symm.imp And.left fun hmem => .inl (by omega)
  rw [outline_append left, hjoint, outline_append between, hstart, hleft, hmiddle, hright]

/-- Behind its first character a span does not show. -/
theorem outline_of_inside (hstart : span.position < position)
    (hstop : position + text.byteLength ≤ span.stop) : outline [span] position text = [] := by
  induction text generalizing position with
  | nil => rfl
  | cons c rest ih =>
      have hsize := c.utf8Size_pos
      rw [byteLength_cons] at hstop
      have hrest := @ih (position + c.utf8Size) (by omega) (by omega)
      have hcovered : span.covers position = true := by
        simp only [Span.covers, Bool.and_eq_true, decide_eq_true_eq]
        omega
      simp [outline, hstart.ne, hcovered, hrest]

theorem outline_singleton (h : span.text ≠ []) :
    outline [span] span.position span.text = [none] := by
  obtain ⟨c, rest, hsplit⟩ := List.exists_cons_of_ne_nil h
  have hsize := c.utf8Size_pos
  have hrest : outline [span] (span.position + c.utf8Size) rest = [] := by
    apply outline_of_inside
    · omega
    · rw [Span.stop, hsplit, byteLength_cons, Nat.add_assoc]
  simp [hsplit, outline, hrest]

theorem filter_of_blank (h : text.Blank) : (text.filter fun c => !isBlank c) = [] := by
  rw [List.filter_eq_nil_iff]
  intro c hc
  simp [h c hc]

end Text

namespace Layout

variable {layout : Layout} {span : Span} {spans : List Span} {position : Nat}
  {negation : Option Text}

/-- The text of a span stands in the text of the layout, as far behind its start as the
position says. -/
theorem exists_of_mem_spans (h : span ∈ (layout.clause position).spans) :
    ∃ before after, layout.text = before ++ (span.text ++ after) ∧
      span.position = position + before.byteLength := by
  induction layout generalizing position with
  | comparison text =>
      obtain rfl := List.mem_singleton.mp h
      exact ⟨[], [], (List.append_nil _).symm, rfl⟩
  | group negation lead inner trail ih =>
      obtain ⟨before, after, hsplit, hplace⟩ := ih h
      refine ⟨opening negation ++ lead ++ before, after ++ trail ++ [')'], ?_, ?_⟩
      · simp [text, hsplit]
      · rw [hplace, Text.byteLength_append _ before, Nat.add_assoc]
  | logic left between connective following right ihl ihr =>
      rcases List.mem_append.mp h with hleft | hright
      · obtain ⟨before, after, hsplit, hplace⟩ := ihl hleft
        exact ⟨before, after ++ (between ++ (connective.token ++ (following ++ right.text))),
          by simp [text, hsplit], hplace⟩
      · obtain ⟨before, after, hsplit, hplace⟩ := ihr hright
        refine ⟨left.text ++ between ++ connective.token ++ following ++ before, after, ?_, ?_⟩
        · simp [text, hsplit]
        · rw [hplace, Text.byteLength_append _ before, Nat.add_assoc]

theorem bounds_of_mem_spans (h : span ∈ (layout.clause position).spans) :
    position ≤ span.position ∧ span.stop ≤ position + layout.text.byteLength := by
  obtain ⟨before, after, hsplit, hplace⟩ := exists_of_mem_spans h
  rw [hsplit, Span.stop, hplace]
  simp only [Text.byteLength_append]
  omega

theorem Legible.fragment_of_mem_spans (h : layout.Legible)
    (hspan : span ∈ (layout.clause position).spans) : Fragment span.text := by
  induction layout generalizing position with
  | comparison text =>
      obtain rfl := List.mem_singleton.mp hspan
      exact h
  | group negation lead inner trail ih => exact ih h.2.2.2.1 hspan
  | logic left before connective after right ihl ihr =>
      rcases List.mem_append.mp hspan with hleft | hright
      · exact ihl h.1 hleft
      · exact ihr h.2.2.2.1 hright

theorem Legible.foldsLeft (h : layout.Legible) (position : Nat) :
    (layout.clause position).FoldsLeft := by
  induction layout generalizing position with
  | comparison text => trivial
  | group negation lead inner trail ih => exact ih h.2.2.2.1 _
  | logic left before connective after right ihl ihr =>
      refine ⟨ihl h.1 _, ihr h.2.2.2.1 _, ?_⟩
      rw [isLogic_clause]
      exact h.2.2.2.2.1

theorem filter_opening (hnegation : ∀ gap, negation = some gap → gap.Blank) :
    (opening negation).filter (fun c => !Text.isBlank c) =
      if negation.isSome then ['!', '('] else ['('] := by
  cases negation with
  | none => rfl
  | some gap =>
      have hgap := Text.filter_of_blank (hnegation gap rfl)
      simp only [opening, List.filter_cons, List.filter_append, hgap]
      rfl

theorem filter_token (connective : Connective) :
    connective.token.filter (fun c => !Text.isBlank c) = connective.token := by
  cases connective <;> rfl

theorem Legible.lt_stop_of_mem_spans (h : layout.Legible)
    (hspan : span ∈ (layout.clause position).spans) : span.position < span.stop :=
  Nat.lt_add_of_pos_right (Text.byteLength_pos (h.fragment_of_mem_spans hspan).nonempty)

/-- What is written before or behind a legible layout has no part in its spans. -/
theorem Legible.outline_before {part : Text} {start : Nat} (h : layout.Legible)
    (hend : start + part.byteLength = position) :
    part.outline (layout.clause position).spans start =
      (part.filter fun c => !Text.isBlank c).map some := by
  apply Text.outline_of_apart _ _ fun span hspan => h.lt_stop_of_mem_spans hspan
  intro span hspan
  exact .inr (hend ▸ (bounds_of_mem_spans hspan).1)

theorem Legible.outline_behind (h : layout.Legible) (part : Text) :
    part.outline (layout.clause position).spans (position + layout.text.byteLength) =
      (part.filter fun c => !Text.isBlank c).map some := by
  apply Text.outline_of_apart _ _ fun span hspan => h.lt_stop_of_mem_spans hspan
  intro span hspan
  exact .inl (bounds_of_mem_spans hspan).2

/-- A legible layout shows the marks of its clause around its spans. -/
theorem Legible.outline_text (h : layout.Legible) (position : Nat) :
    layout.text.outline (layout.clause position).spans position =
      (layout.clause position).outline := by
  induction layout generalizing position with
  | comparison text => exact Text.outline_singleton (Fragment.nonempty h)
  | group negation lead inner trail ih =>
      obtain ⟨hnegation, hlead, htrail, hinner, -⟩ := h
      generalize hstart : position + (opening negation ++ lead).byteLength = start
      have hsplit : (group negation lead inner trail).text =
          (opening negation ++ lead) ++ (inner.text ++ (trail ++ [')'])) := by
        simp [text]
      rw [hsplit, clause, hstart, Clause.spans, Text.outline_append (opening negation ++ lead),
        hinner.outline_before hstart, hstart, Text.outline_append inner.text, ih hinner,
        hinner.outline_behind, Clause.outline, List.filter_append, List.filter_append,
        filter_opening hnegation, Text.filter_of_blank hlead, Text.filter_of_blank htrail]
      cases negation <;> rfl
  | logic left before connective after right ihl ihr =>
      obtain ⟨hleft, hbefore, hafter, hright, -⟩ := id h
      generalize hjoint : position + left.text.byteLength = joint
      generalize hstart : joint + (before ++ connective.token ++ after).byteLength = start
      have hsplit : (logic left before connective after right).text =
          left.text ++ ((before ++ connective.token ++ after) ++ right.text) := by
        simp [text]
      have hclause : (logic left before connective after right).clause position =
          .logic (left.clause position) connective (right.clause start) := by
        rw [clause, ← hstart, ← hjoint]
        simp [Nat.add_assoc]
      have hfull : ∀ span ∈ ((logic left before connective after right).clause position).spans,
          span.position < span.stop := fun span hspan => h.lt_stop_of_mem_spans hspan
      rw [hclause, Clause.spans] at hfull ⊢
      rw [hsplit, Text.outline_joined hfull
          (fun span hspan => hjoint ▸ (bounds_of_mem_spans hspan).2)
          (fun span hspan => (bounds_of_mem_spans hspan).1) hjoint hstart,
        ihl hleft, ihr hright, Clause.outline, List.filter_append, List.filter_append,
        Text.filter_of_blank hbefore, filter_token, Text.filter_of_blank hafter, List.nil_append,
        List.append_nil]

theorem pairwise_spans (layout : Layout) (position : Nat) :
    (layout.clause position).spans.Pairwise fun first second => first.stop ≤ second.position := by
  induction layout generalizing position with
  | comparison text => exact List.pairwise_singleton _ _
  | group negation lead inner trail ih => exact ih _
  | logic left before connective after right ihl ihr =>
      refine List.pairwise_append.mpr ⟨ihl _, ihr _, ?_⟩
      intro first hfirst second hsecond
      have hleft := (bounds_of_mem_spans hfirst).2
      have hright := (bounds_of_mem_spans hsecond).1
      simp only [Text.byteLength_append] at hright
      omega

end Layout

/-- What is read of a text accounts for all of it. Each comparison is the text of its
span, whose bytes stand at its position; the spans share no byte and go from left to
right; what is outside the spans are blanks and the marks of the tree. Every
comparison is a fragment, and chains fold to the left. -/
theorem Clause.parse_lossless {source : Text} {clause : Clause} (h : parse source = .ok clause) :
    (∀ span ∈ clause.spans, span.StandsIn source ∧ Fragment span.text) ∧
      clause.spans.Pairwise (fun first second => first.stop ≤ second.position) ∧
      Text.outline clause.spans 0 source = clause.outline ∧ clause.FoldsLeft := by
  obtain ⟨lead, layout, trail, hlead, htrail, hlegible, rfl, rfl⟩ := parse_eq_ok_iff.mp h
  have hfragment : ∀ span ∈ (layout.clause lead.byteLength).spans, Fragment span.text :=
    fun span hspan => hlegible.fragment_of_mem_spans hspan
  refine ⟨fun span hspan => ⟨?_, hfragment span hspan⟩, layout.pairwise_spans _, ?_,
    hlegible.foldsLeft _⟩
  · obtain ⟨before, after, hsplit, hplace⟩ := Layout.exists_of_mem_spans hspan
    refine ⟨lead ++ before, after ++ trail, ?_, ?_⟩
    · simp [hsplit]
    · rw [hplace, Text.byteLength_append]
  · rw [Text.outline_append lead, Text.outline_append layout.text, Nat.zero_add,
      hlegible.outline_before (Nat.zero_add _), hlegible.outline_text, hlegible.outline_behind,
      Text.filter_of_blank hlead, Text.filter_of_blank htrail]
    simp

/-- Comparisons of characters of several widths in nested groups. -/
theorem Clause.parse_lossless_nested :
    let source := "\u2003!( (é == \"(&&\")&&n < 3)||t& != 1 ".toList
    ∃ clause, parse source = .ok clause ∧
      clause.spans = [{ text := "é == \"(&&\"".toList, position := 7 },
        { text := "n < 3".toList, position := 21 }, { text := "t& != 1".toList, position := 29 }] ∧
      clause.outline = [some '!', some '(', some '(', none, some ')', some '&', some '&', none,
        some ')', some '|', some '|', none] ∧
      Text.outline clause.spans 0 source = clause.outline ∧
      ∀ span ∈ clause.spans, span.StandsIn source ∧ Fragment span.text := by
  intro source
  have hread : (parse source).map (fun clause => (clause.spans, clause.outline)) =
      .ok ([{ text := "é == \"(&&\"".toList, position := 7 },
          { text := "n < 3".toList, position := 21 }, { text := "t& != 1".toList, position := 29 }],
        [some '!', some '(', some '(', none, some ')', some '&', some '&', none,
          some ')', some '|', some '|', none]) := by
    decide +kernel
  obtain ⟨clause, hclause, hsame⟩ := Except.map_eq_ok_iff.mp hread
  obtain ⟨hspans, houtline⟩ := Prod.mk.inj hsame
  obtain ⟨hfragments, -, hsource, -⟩ := parse_lossless hclause
  exact ⟨clause, hclause, hspans, houtline, hsource, hfragments⟩

end Criteria
