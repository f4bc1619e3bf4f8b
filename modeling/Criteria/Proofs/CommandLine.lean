import Criteria.CommandLine
import Criteria.Proofs.Collating
import Criteria.Proofs.Strictness

/-!
The command line with texts compared without regard to case. Where the arguments give a context
the option decides nothing about parsing. Where they give none it makes an empty context take
the place of the default one, and in an empty context every symbol of a script is an error.
-/

namespace Criteria.CommandLine

namespace Arguments

/-- The same arguments, and texts are compared without regard to case. -/
def ignoringCase (arguments : Arguments) : Arguments :=
  { arguments with ignoreCase := true }

/-- The setting has no part in whether case is ignored. -/
def Setting.LeavesCase : Setting → Prop
  | .flag set => ∀ arguments after, set arguments = some after →
      after.ignoreCase = arguments.ignoreCase ∧ set arguments.ignoringCase = some after.ignoringCase
  | .valued set => ∀ arguments value after, set arguments value = some after →
      after.ignoreCase = arguments.ignoreCase ∧
        set arguments.ignoringCase value = some after.ignoringCase

variable {arguments given after : Arguments} {name : Text} {rest : List Text}

/-- A setting which is blocked or made is so in the same way when case is ignored. -/
theorem ite_ignoringCase {blocked : Prop} [Decidable blocked] {result : Arguments}
    (h : (if blocked then none else some result) = some after) :
    after = result ∧
      (if blocked then none else some result.ignoringCase) = some after.ignoringCase := by
  split at h
  · cases h
  · next hfree =>
    obtain rfl := Option.some.inj h
    exact ⟨rfl, if_neg hfree⟩

theorem addScript?_leavesCase {script : Text} (h : arguments.addScript? script = some after) :
    after.ignoreCase = arguments.ignoreCase ∧
      arguments.ignoringCase.addScript? script = some after.ignoringCase := by
  obtain ⟨rfl, hsame⟩ := ite_ignoringCase h
  exact ⟨rfl, hsame⟩

theorem setting?_leavesCase {setting : Setting} (h : setting? name = some setting) :
    setting = .flag setIgnoreCase? ∨ setting.LeavesCase := by
  have hchosen {chosen : Setting} (hsome : some chosen = some setting)
      (hleaves : chosen.LeavesCase) : setting = .flag setIgnoreCase? ∨ setting.LeavesCase := by
    obtain rfl := Option.some.inj hsome
    exact .inr hleaves
  unfold setting? at h
  split at h
  · refine hchosen h fun arguments values after hset => ?_
    obtain ⟨rfl, hsame⟩ := ite_ignoringCase hset
    exact ⟨rfl, hsame⟩
  · refine hchosen h fun arguments document after hset => ?_
    obtain ⟨rfl, hsame⟩ := ite_ignoringCase hset
    exact ⟨rfl, hsame⟩
  · refine hchosen h fun arguments assignment after hset => ?_
    obtain rfl := Option.some.inj hset
    exact ⟨rfl, rfl⟩
  · exact .inl (Option.some.inj h).symm
  · refine hchosen h fun arguments after hset => ?_
    obtain ⟨rfl, hsame⟩ := ite_ignoringCase hset
    exact ⟨rfl, hsame⟩
  · refine hchosen h fun arguments after hset => ?_
    obtain rfl := Option.some.inj hset
    exact ⟨rfl, rfl⟩
  · cases h

theorem addScripts_leavesCase (h : rest.foldlM addScript? arguments = some given) :
    given.ignoreCase = arguments.ignoreCase ∧
      rest.foldlM addScript? arguments.ignoringCase = some given.ignoringCase := by
  induction rest generalizing arguments with
  | nil =>
      obtain rfl := Option.some.inj h
      exact ⟨rfl, rfl⟩
  | cons script more ih =>
      rw [List.foldlM_cons] at h ⊢
      obtain ⟨after, hscript, hmore⟩ := Option.bind_eq_some_iff.mp h
      obtain ⟨hcase, hsame⟩ := addScript?_leavesCase hscript
      obtain ⟨hcases, hrest⟩ := ih hmore
      rw [hsame]
      exact ⟨hcases.trans hcase, hrest⟩

theorem ignoreCase_of_setIgnoreCase? (h : setIgnoreCase? arguments = some after) :
    after.ignoreCase = true := by
  obtain ⟨rfl, -⟩ := ite_ignoringCase h
  rfl

/-- One argument is used, and the rest of them is read. -/
theorem bind_read?_ignoringCase {first second : Option Arguments}
    (h : (first >>= read? rest) = some given)
    (hrest : ∀ after, read? rest after = some given →
      after.ignoreCase = false ∧ read? rest after.ignoringCase = some given.ignoringCase)
    (hfirst : ∀ after, first = some after → after.ignoreCase = false →
      after.ignoreCase = arguments.ignoreCase ∧ second = some after.ignoringCase) :
    arguments.ignoreCase = false ∧ (second >>= read? rest) = some given.ignoringCase := by
  obtain ⟨after, hset, hread⟩ := Option.bind_eq_some_iff.mp h
  obtain ⟨hcase, hsame⟩ := hrest after hread
  obtain ⟨hleft, rfl⟩ := hfirst after hset hcase
  exact ⟨hleft ▸ hcase, hsame⟩

/-- Arguments which do not ask for it are read in the same way when case is ignored from the
start. -/
theorem read?_ignoringCase {texts : List Text} (h : read? texts arguments = some given)
    (hcase : given.ignoreCase = false) :
    arguments.ignoreCase = false ∧
      read? texts arguments.ignoringCase = some given.ignoringCase := by
  fun_induction read? texts arguments with
  | case1 arguments =>
      obtain rfl := Option.some.inj h
      exact ⟨hcase, rfl⟩
  | case2 rest arguments =>
      obtain ⟨hsame, hrest⟩ := addScripts_leavesCase h
      exact ⟨hsame ▸ hcase, by rwa [read?]⟩
  | case3 option arguments hnonempty name set rest hsetting hsplit ih =>
      have hset : ∀ after, set arguments = some after → after.ignoreCase = false →
          after.ignoreCase = arguments.ignoreCase ∧
            set arguments.ignoringCase = some after.ignoringCase := by
        intro after hset hafter
        rcases setting?_leavesCase hsetting with hignore | hleaves
        · -- The option itself cannot be among the arguments.
          obtain rfl := Setting.flag.inj hignore
          rw [ignoreCase_of_setIgnoreCase? hset] at hafter
          cases hafter
        · exact hleaves arguments after hset
      simp only [read?, hsplit, hsetting]
      exact bind_read?_ignoringCase h ih hset
  | case4 option arguments hnonempty name set value rest hsetting hsplit ih =>
      have hleaves := (setting?_leavesCase hsetting).resolve_left nofun
      simp only [read?, hsplit, hsetting]
      exact bind_read?_ignoringCase h ih fun after hset _ => hleaves arguments value after hset
  | case5 option arguments hnonempty name set value rest hsetting hvalue hsplit ih =>
      have hleaves := (setting?_leavesCase hsetting).resolve_left nofun
      simp only [read?, hsplit, hsetting, if_pos hvalue]
      exact bind_read?_ignoringCase h ih fun after hset _ => hleaves arguments value after hset
  | case6 => cases h
  | case7 => cases h
  | case8 letter letters rest arguments hbare hoption hverbose ih =>
      obtain ⟨hsame, hread⟩ := ih h
      refine ⟨hsame, ?_⟩
      rw [read?, if_pos hverbose]
      · exact hread
      · exact hbare
      · exact hoption
  | case9 => cases h
  | case10 script rest arguments hend hoption hletters ih =>
      rw [read?]
      · exact bind_read?_ignoringCase h ih fun after hset _ => addScript?_leavesCase hset
      · exact hend
      · exact hoption
      · exact hletters

/-- The arguments describe a context, be it an empty one. -/
def GivesContext (arguments : Arguments) : Prop :=
  arguments.values.isSome ∨ arguments.document.isSome ∨ arguments.assignments ≠ []

/-- The context which the arguments describe, before it is said how texts are compared. -/
def filled (arguments : Arguments) : Except Error Context := do
  let given ←
    match arguments.values, arguments.document with
    | some values, _ => Context.ofJson values
    | none, some document => Context.ofDocument document
    | none, none => pure .empty
  arguments.assignments.foldlM assign given

theorem not_givesContext_iff :
    ¬arguments.GivesContext ↔ arguments.values.isNone && arguments.document.isNone &&
      arguments.assignments.isEmpty := by
  simp [GivesContext, and_assoc]

theorem context_eq (arguments : Arguments) :
    arguments.context =
      if arguments.values.isNone && arguments.document.isNone && arguments.assignments.isEmpty &&
          !arguments.ignoreCase then .ok none
      else arguments.filled.map fun filled =>
        some (if arguments.ignoreCase then filled.withCollation .ordinalIgnoreCase
          else filled) := by
  have hmap (given : Except Error Context) (f : Context → Option Context) :
      (given >>= fun start => arguments.assignments.foldlM assign start >>= fun filled =>
          pure (f filled)) =
        (given >>= fun start => arguments.assignments.foldlM assign start).map f := by
    cases given with
    | error error => rfl
    | ok start =>
        rw [Except.ok_bind, Except.ok_bind]
        cases arguments.assignments.foldlM assign start <;> rfl
  unfold context filled
  split
  · rfl
  · rcases arguments.values with _ | values
    · rcases arguments.document with _ | document
      · exact hmap _ _
      · exact hmap _ _
    · exact hmap _ _

theorem context_ignoringCase (arguments : Arguments) :
    arguments.ignoringCase.context =
      arguments.filled.map fun filled => some (filled.withCollation .ordinalIgnoreCase) := by
  rw [context_eq]
  simp [ignoringCase]
  rfl

theorem context_of_givesContext (h : arguments.GivesContext)
    (hcase : arguments.ignoreCase = false) : arguments.context = arguments.filled.map some := by
  have hgives := mt not_givesContext_iff.mpr (not_not.mpr h)
  rw [context_eq, Bool.not_eq_true] at *
  simp [hgives, hcase]

theorem context_of_not_givesContext (h : ¬arguments.GivesContext) :
    arguments.filled = .ok .empty ∧
      (arguments.ignoreCase = false → arguments.context = .ok none) := by
  have hnothing := not_givesContext_iff.mp h
  constructor
  · simp only [Bool.and_eq_true, Option.isNone_iff_eq_none, List.isEmpty_iff] at hnothing
    obtain ⟨⟨hvalues, hdocument⟩, hassignments⟩ := hnothing
    rw [filled, hvalues, hdocument, hassignments]
    rfl
  · intro hcase
    rw [context_eq, hnothing, hcase]
    rfl

/-- The criterion which the script is parsed as in the context of the arguments. -/
def criterion (arguments : Arguments) (script : Text) : Except Error Criterion := do
  return (← Script.parse .builtin script (← arguments.context)).criterion

theorem criterion_eq (arguments : Arguments) (script : Text) :
    arguments.criterion script =
      arguments.context >>= fun given =>
        (Script.parse .builtin script given).map Script.criterion := by
  unfold criterion
  cases arguments.context with
  | error error => rfl
  | ok given =>
      rw [Except.ok_bind, Except.ok_bind]
      cases Script.parse .builtin script given <;> rfl

theorem outcome_of_parseOnly (h : arguments.parseOnly = true) (script : Text) :
    arguments.outcome script = (arguments.criterion script).map Criterion.text := by
  rw [criterion_eq, outcome]
  cases arguments.context with
  | error error => rfl
  | ok given =>
      rw [Except.ok_bind, Except.ok_bind, if_pos h, canonical]
      cases Script.parse .builtin script given <;> rfl

/-- Where a context is given, how texts are compared has no part in parsing. -/
theorem criterion_ignoringCase (h : arguments.GivesContext) (hcase : arguments.ignoreCase = false)
    (script : Text) : arguments.ignoringCase.criterion script = arguments.criterion script := by
  rw [criterion_eq, criterion_eq, context_ignoringCase, context_of_givesContext h hcase]
  cases arguments.filled with
  | error error => rfl
  | ok filled =>
      have hvalues := filled.sameValues_withCollation filled.collation .ordinalIgnoreCase
      have hagrees := Script.criterion_agrees Registry.builtin_settled hvalues.shares script
      exact hagrees.eq_of_forall fun _ _ => id

/-- Where none is given, symbols have no value, and with this option they must have one. -/
theorem criterion_of_not_givesContext (h : ¬arguments.GivesContext)
    (hcase : arguments.ignoreCase = false) (script : Text) :
    arguments.criterion script =
        (Script.parse .builtin script (some .default)).map Script.criterion ∧
      arguments.ignoringCase.criterion script =
        (Script.parse .builtin script (some Context.default.strict)).map Script.criterion := by
  obtain ⟨hfilled, hnone⟩ := context_of_not_givesContext h
  constructor
  · rw [criterion_eq, hnone hcase, Except.ok_bind, Script.map_criterion_parse,
      Script.map_criterion_parse]
    rfl
  · rw [criterion_eq, context_ignoringCase, hfilled, Except.ok_map, Except.ok_bind]
    have hvalues := Context.empty.sameValues_withCollation .ordinal .ordinalIgnoreCase
    have hagrees := Script.criterion_agrees Registry.builtin_settled hvalues.shares script
    exact hagrees.eq_of_forall fun _ _ => id

end Arguments

/-- How a run ends which prints a text or reports an error. -/
def Result.of : Except Error Text → Result
  | .ok text => { exitCode := 0, stdout := String.ofList text ++ "\n", stderr := "" }
  | .error error => { exitCode := 1, stdout := "", stderr := "error: " ++ error.message ++ "\n" }

theorem run_eq {texts : List Text} {given : Arguments} {script : Text}
    (h : Arguments.read? texts {} = some given) (hscript : given.script = some script) :
    run texts = Result.of (given.outcome script) := by
  simp only [run, h, hscript]
  cases given.outcome script <;> rfl

theorem run_of_criterion {texts : List Text} {given : Arguments} {script : Text}
    (h : Arguments.read? texts {} = some given) (hscript : given.script = some script)
    (hparse : given.parseOnly = true) :
    run texts = Result.of ((given.criterion script).map Criterion.text) := by
  rw [run_eq h hscript, Arguments.outcome_of_parseOnly hparse]

theorem read?_ignoreCase_cons {texts : List Text} :
    Arguments.read? ("--ignore-case".toList :: texts) {} =
      Arguments.read? texts (Arguments.ignoringCase {}) := by
  rfl

/-- Arguments which give a context are parsed with the same outcome when texts are compared
without regard to case, wherever the option stands among them. Without a context an accepted
script keeps its outcome exactly if it has no symbols, and the error names one of them if it
has some. A refused script has the same error, or one that names a symbol. -/
theorem run_ignoringCase {plain flagged : List Text} {given : Arguments} {script : Text}
    (hplain : Arguments.read? plain {} = some given) (hscript : given.script = some script)
    (hparse : given.parseOnly = true) (hcase : given.ignoreCase = false)
    (hflagged : Arguments.read? flagged {} = some given.ignoringCase) :
    Arguments.read? ("--ignore-case".toList :: plain) {} = some given.ignoringCase ∧
    (given.GivesContext → run flagged = run plain ∧
      given.ignoringCase.criterion script = given.criterion script) ∧
    (¬given.GivesContext →
      (∀ criterion, given.criterion script = .ok criterion →
        (criterion.keys = [] → run flagged = run plain ∧
          given.ignoringCase.criterion script = .ok criterion) ∧
        (criterion.keys ≠ [] → ∃ key ∈ criterion.keys,
          run flagged = .of (.error (.script (.unresolvedSymbol key))))) ∧
      ∀ error, given.criterion script = .error error → run flagged = run plain ∨
        ∃ key, run flagged = .of (.error (.script (.unresolvedSymbol key)))) := by
  have hrunPlain := run_of_criterion hplain hscript hparse
  have hrunFlagged := run_of_criterion hflagged hscript hparse
  refine ⟨?_, fun hgives => ?_, fun hgives => ?_⟩
  · rw [read?_ignoreCase_cons]
    exact (Arguments.read?_ignoringCase hplain hcase).2
  · have hsame := Arguments.criterion_ignoringCase hgives hcase script
    rw [hrunFlagged, hrunPlain, hsame]
    exact ⟨rfl, rfl⟩
  · obtain ⟨hdefault, hstrict⟩ := Arguments.criterion_of_not_givesContext hgives hcase script
    obtain ⟨haccepted, hrefused⟩ :=
      Script.criterion_strict Registry.builtin_settled Context.closed_default script
    have hundefined (key : Text) : ¬Context.default.Defines key :=
      Context.closed_default.not_defines_of_find? rfl
    rw [hdefault, hrunFlagged, hrunPlain, hdefault, hstrict]
    constructor
    · intro criterion hcriterion
      rcases haccepted criterion hcriterion with ⟨hsame, hdefined⟩ | ⟨key, hkey, -, herror⟩
      · rw [hsame, hcriterion]
        refine ⟨fun _ => ⟨rfl, rfl⟩, fun hkeys => ?_⟩
        obtain ⟨key, hkey⟩ := List.exists_mem_of_ne_nil _ hkeys
        exact absurd (hdefined key hkey) (hundefined key)
      · rw [herror]
        refine ⟨fun hkeys => ?_, fun _ => ⟨key, hkey, rfl⟩⟩
        rw [hkeys] at hkey
        cases hkey
    · intro error herror
      rcases hrefused error herror with hsame | ⟨key, hother⟩
      · exact .inl (by rw [hsame, herror])
      · exact .inr ⟨key, by rw [hother]; rfl⟩

/-- A containment in a value that is given, a comparison without symbols, and a symbol which
has a value nowhere. -/
theorem run_ignoringCase_options :
    let given : Arguments :=
      { script := some "!(a < \"xy\")".toList, assignments := ["a=X".toList], parseOnly := true }
    let plain := ["--var".toList, "a=X".toList, "--parse-only".toList, "!(a < \"xy\")".toList]
    let flagged := ["--parse-only".toList, "--ignore-case".toList, "--var=a=X".toList,
      "!(a < \"xy\")".toList]
    let literal := ["--parse-only".toList, "\"a\" == \"A\" && !(1 > 2)".toList]
    let symbol := ["--parse-only".toList, "1 == 1 && a == 1".toList]
    Arguments.read? plain {} = some given ∧
      Arguments.read? flagged {} = some given.ignoringCase ∧
      run flagged = run plain ∧
      run ("--ignore-case".toList :: literal) = run literal ∧
      run ("--ignore-case".toList :: symbol) =
        .of (.error (.script (.unresolvedSymbol ['a']))) := by
  intro given plain flagged literal symbol
  have hplain : Arguments.read? plain {} = some given := by rfl
  have hflagged : Arguments.read? flagged {} = some given.ignoringCase := by rfl
  have hgives : given.GivesContext := .inr (.inr (List.cons_ne_nil _ _))
  obtain ⟨-, hsame, -⟩ := run_ignoringCase hplain rfl rfl rfl hflagged
  refine ⟨hplain, hflagged, (hsame hgives).1, ?_, ?_⟩
  -- Neither of the other two gives a context. The first has no symbols, the second has one.
  · let bare : Arguments :=
      { script := some "\"a\" == \"A\" && !(1 > 2)".toList, parseOnly := true }
    have hnothing : ¬bare.GivesContext := by simp [Arguments.GivesContext, bare]
    have hread : Arguments.read? literal {} = some bare := by rfl
    have hreadFlagged : Arguments.read? ("--ignore-case".toList :: literal) {} =
        some bare.ignoringCase := by rfl
    have hkeys : (bare.criterion "\"a\" == \"A\" && !(1 > 2)".toList).map Criterion.keys =
        .ok [] := by
      decide +kernel
    obtain ⟨criterion, hcriterion, hnone⟩ := Except.map_eq_ok_iff.mp hkeys
    obtain ⟨-, -, hbare⟩ := run_ignoringCase hread rfl rfl rfl hreadFlagged
    exact (((hbare hnothing).1 criterion hcriterion).1 hnone).1
  · let bare : Arguments := { script := some "1 == 1 && a == 1".toList, parseOnly := true }
    have hnothing : ¬bare.GivesContext := by simp [Arguments.GivesContext, bare]
    have hread : Arguments.read? symbol {} = some bare := by rfl
    have hreadFlagged : Arguments.read? ("--ignore-case".toList :: symbol) {} =
        some bare.ignoringCase := by rfl
    have hkeys : (bare.criterion "1 == 1 && a == 1".toList).map Criterion.keys = .ok [['a']] := by
      decide +kernel
    obtain ⟨criterion, hcriterion, hone⟩ := Except.map_eq_ok_iff.mp hkeys
    obtain ⟨-, -, hbare⟩ := run_ignoringCase hread rfl rfl rfl hreadFlagged
    obtain ⟨key, hkey, hrun⟩ :=
      ((hbare hnothing).1 criterion hcriterion).2 (by rw [hone]; exact List.cons_ne_nil _ _)
    rw [hone, List.mem_singleton] at hkey
    rw [hrun, hkey]

/-- Without a context the option makes the symbol of an accepted script an error. -/
theorem not_run_ignoringCase_symbol :
    let given : Arguments := { script := some "a == 1".toList, parseOnly := true }
    let plain := ["--parse-only".toList, "a == 1".toList]
    let flagged := ["--parse-only".toList, "--ignore-case".toList, "a == 1".toList]
    Arguments.read? plain {} = some given ∧ Arguments.read? flagged {} = some given.ignoringCase ∧
      run plain = { exitCode := 0, stdout := "a == 1\n", stderr := "" } ∧
      run flagged = {
        exitCode := 1
        stdout := ""
        stderr := "error: script error 2006: symbol `a` is not defined\n" } :=
  ⟨by rfl, by rfl, by decide +kernel, by decide +kernel⟩

end Criteria.CommandLine
