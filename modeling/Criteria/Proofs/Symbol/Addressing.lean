import Criteria.Proofs.Comparison.Standing
import Criteria.Proofs.Symbol.Written
import Criteria.Script

/-!
Every part of a value of a context can be written. A path leads from the value through entries
of maps and items of lists, and the symbol with the key of the value and the indexers of the
path resolves to the part which the path reaches, or to null where it reaches none. In a
comparison the symbol is one operand, unless it is a keyword.
-/

namespace Criteria

/-- A value leads by a path to a part of it: by a key to the entry of a map, and by a position
to the item of a list. -/
inductive Scalar.Reaches : Scalar → List Indexer → Scalar → Prop
  | here {value : Scalar} : Reaches value [] value
  | entry {entries : Table Scalar} {key : Text} {value part : Scalar} {path : List Indexer}
      (hentry : Table.find? key entries = some value) (hrest : Reaches value path part) :
      Reaches (.map entries) (.key key :: path) part
  | item {items : List Scalar} {index : Nat} {value part : Scalar} {path : List Indexer}
      (hitem : items[index]? = some value) (hrest : Reaches value path part) :
      Reaches (.list items) (.position index :: path) part

namespace Scalar

variable {value part : Scalar} {path : List Indexer}

/-- The part to which a path leads. -/
def part? (value : Scalar) (path : List Indexer) : Option Scalar :=
  path.foldlM (fun value indexer => indexer.apply? value) value

theorem part?_cons (value : Scalar) (indexer : Indexer) (path : List Indexer) :
    value.part? (indexer :: path) = indexer.apply? value >>= fun inner => inner.part? path :=
  rfl

theorem part?_eq_some_iff : value.part? path = some part ↔ value.Reaches path part := by
  constructor
  · intro h
    induction path generalizing value with
    | nil =>
        obtain rfl := Option.some.inj h
        exact .here
    | cons indexer more ih =>
        rw [part?_cons, Option.bind_eq_bind, Option.bind_eq_some_iff] at h
        obtain ⟨inner, hinner, hmore⟩ := h
        unfold Indexer.apply? at hinner
        split at hinner
        · exact .entry hinner (ih hmore)
        · exact .item hinner (ih hmore)
        · cases hinner
  · intro h
    induction h with
    | here => rfl
    | entry hentry _ ih => exact Option.bind_eq_some_iff.mpr ⟨_, hentry, ih⟩
    | item hitem _ ih => exact Option.bind_eq_some_iff.mpr ⟨_, hitem, ih⟩

theorem part?_eq_none_iff : value.part? path = none ↔ ∀ part, ¬value.Reaches path part := by
  simp only [Option.eq_none_iff_forall_ne_some, ne_eq, part?_eq_some_iff]

end Scalar

namespace OperandParser

variable {text : Text} {value : Scalar}

/-- The words which are literals, and what they mean. -/
def keywords : List (Text × Scalar) :=
  [("true".toList, .bool true), ("false".toList, .bool false), ("null".toList, .null)]

theorem keyword?_eq_some_iff : keyword? text = some value ↔ (text, value) ∈ keywords := by
  constructor
  · intro h
    unfold keyword? at h
    split at h
    · cases h
      simp [keywords]
    · cases h
      simp [keywords]
    · cases h
      simp [keywords]
    · cases h
  · intro h
    simp only [keywords, List.mem_cons, Prod.mk.injEq, List.not_mem_nil, or_false] at h
    rcases h with ⟨rfl, rfl⟩ | ⟨rfl, rfl⟩ | ⟨rfl, rfl⟩ <;> rfl

theorem selects_keyword (h : keyword? text = some value) :
    Registry.builtin.Selects text 2 (.literal text value) := by
  have hrecognizes := keyword_recognizes h
  simp only [keyword?_eq_some_iff, keywords, List.mem_cons, Prod.mk.injEq, List.not_mem_nil,
    or_false] at h
  have hothers : text.head? ≠ some '"' ∧ Lexeme.number? text = none := by
    rcases h with ⟨rfl, -⟩ | ⟨rfl, -⟩ | ⟨rfl, -⟩ <;> decide
  exact .later (string_passes hothers.1) (.later (number_passes hothers.2) (.here hrecognizes))

end OperandParser

namespace Symbol

variable {key : Text} {path : List Indexer}

theorem trim_ofPath (hkey : Lexeme.identifier? key = some (key, [])) :
    Text.trim (ofPath key path).source = (ofPath key path).source := by
  obtain ⟨c, rest, rfl, hword, -⟩ := Lexeme.exists_of_identifier? hkey
  apply Text.trim_of_full
  · rintro d ⟨⟩
    exact Lexeme.isBlank_of_isWordCharacter hword
  · intro d hd
    rw [ofPath, List.getLast?_append, Option.or_eq_some_iff] at hd
    rcases hd with hstep | ⟨-, hlast⟩
    · rw [Indexer.getLast?_flatMap_written hstep]
      decide
    · exact Lexeme.isBlank_of_isWordCharacter (Lexeme.isWordCharacter_of_getLast? hkey hlast)

/-- With a step the text of a symbol is no keyword. -/
theorem keyword?_ofPath (hpath : path ≠ []) :
    OperandParser.keyword? (ofPath key path).source = none := by
  rw [Option.eq_none_iff_forall_ne_some]
  intro value hvalue
  have hplain : ∀ pair ∈ OperandParser.keywords, '[' ∉ pair.1 := by decide
  apply hplain _ (OperandParser.keyword?_eq_some_iff.mp hvalue)
  obtain ⟨indexer, more, rfl⟩ := List.exists_cons_of_ne_nil hpath
  simp [ofPath, Indexer.written]

theorem selects_ofPath (hkey : Lexeme.identifier? key = some (key, []))
    (hpath : ∀ indexer ∈ path, indexer.IsExact)
    (hkeyword : OperandParser.keyword? (ofPath key path).source = none) :
    Registry.builtin.Selects (ofPath key path).source 4 (.symbol (ofPath key path)) := by
  have hread := ofText?_ofPath hkey hpath
  obtain ⟨c, rest, rfl, hword, hdigit⟩ := Lexeme.exists_of_identifier? hkey
  have hhead {d : Char} (hd : (ofPath (c :: rest) path).source.head? = some d) : c = d :=
    Option.some.inj hd
  -- The literals are tried before symbols, and none of them starts like a key.
  refine .later (OperandParser.string_passes ?_) (.later (OperandParser.number_passes ?_)
    (.later (OperandParser.keyword_passes hkeyword) (.later (OperandParser.list_passes ?_)
      (.here (OperandParser.symbol_recognizes hread)))))
  · intro hquote
    rw [hhead hquote] at hword
    exact absurd hword (by decide)
  · apply Lexeme.number?_eq_none
    intro d hd
    obtain rfl := hhead hd
    refine ⟨hdigit, ?_⟩
    rintro rfl
    exact absurd hword (by decide)
  · intro hbracket
    rw [hhead hbracket] at hword
    exact absurd hword (by decide)

variable {context : Context} {value : Scalar}

theorem source_ofPath_nil (key : Text) : (ofPath key []).source = key :=
  List.append_nil key

theorem resolve_ofPath (hvalue : context.resolve key = .ok value) (path : List Indexer) :
    (Operand.symbol (ofPath key path)).resolve context = .ok ((value.part? path).getD .null) := by
  simp only [Operand.resolve, lookup, ofPath, hvalue, Except.ok_map, Scalar.part?]

/-- Every part of a value of a context is written as a symbol, which resolves to it. Where the
path leads to no part the symbol is null. In a comparison the text of the symbol is one operand,
whatever the keys of the path are, and is the symbol unless it is one of the keywords. -/
theorem addressable (hkey : Lexeme.identifier? key = some (key, []))
    (hvalue : context.resolve key = .ok value) (hpath : ∀ indexer ∈ path, indexer.IsExact) :
    let symbol := ofPath key path
    ofText? symbol.source = .ok (some symbol) ∧
      (∀ part, value.Reaches path part → (Operand.symbol symbol).resolve context = .ok part) ∧
      ((∀ part, ¬value.Reaches path part) → (Operand.symbol symbol).resolve context = .ok .null) ∧
      ((path ≠ [] ∨ ∀ meaning, (key, meaning) ∉ OperandParser.keywords) →
        symbol.source.StandsFor (.symbol symbol)) ∧
      (path = [] → ∀ meaning, (key, meaning) ∈ OperandParser.keywords →
        symbol.source.StandsFor (.literal key meaning)) := by
  intro symbol
  have hresolve : (Operand.symbol symbol).resolve context =
      .ok ((value.part? path).getD .null) := resolve_ofPath hvalue path
  have htrim : Text.trim symbol.source = symbol.source := trim_ofPath hkey
  refine ⟨ofText?_ofPath hkey hpath, ?_, ?_, ?_, ?_⟩
  · intro part hreaches
    rw [hresolve, Scalar.part?_eq_some_iff.mpr hreaches, Option.getD_some]
  · intro hnowhere
    rw [hresolve, Scalar.part?_eq_none_iff.mpr hnowhere, Option.getD_none]
  · intro hother
    have hkeyword : OperandParser.keyword? symbol.source = none := by
      by_cases hsteps : path = []
      · subst hsteps
        rw [source_ofPath_nil, Option.eq_none_iff_forall_ne_some]
        intro meaning hmeaning
        exact hother.resolve_left (not_not_intro rfl) meaning
          (OperandParser.keyword?_eq_some_iff.mp hmeaning)
      · exact keyword?_ofPath hsteps
    exact (selects_ofPath hkey hpath hkeyword).standsFor htrim
  · rintro rfl meaning hmeaning
    have hkeyword : OperandParser.keyword? key = some meaning :=
      OperandParser.keyword?_eq_some_iff.mpr hmeaning
    rw [source_ofPath_nil] at htrim ⊢
    exact (OperandParser.selects_keyword hkeyword).standsFor htrim

/-- A key with a quote, brackets, tokens and a backslash at its end. It has a list of one item. -/
theorem addressable_tokens :
    let name := "\"][0] == (x) && !\\".toList
    let context : Context := { values := [("a.b".toList, .map [(name, .list [.text ['v']])])] }
    let first := ofPath "a.b".toList [.key name, .position 0]
    let second := ofPath "a.b".toList [.key name, .position 1]
    first.source = "a.b[\"\\\"][0] == (x) && !\\\\\"][0]".toList ∧
      ofText? first.source = .ok (some first) ∧
      first.source.StandsFor (.symbol first) ∧
      (Operand.symbol first).resolve context = .ok (.text ['v']) ∧
      (Operand.symbol second).resolve context = .ok .null := by
  intro name context first second
  have hkey : Lexeme.identifier? "a.b".toList = some ("a.b".toList, []) := by decide +kernel
  have hvalue : context.resolve "a.b".toList = .ok (.map [(name, .list [.text ['v']])]) := rfl
  have hexact (index : Nat) (hindex : index < Number.twoTo 53) :
      ∀ indexer ∈ [Indexer.key name, .position index], indexer.IsExact := by
    simpa [Indexer.IsExact] using hindex
  obtain ⟨hread, hreached, -, hstands, -⟩ := addressable hkey hvalue (hexact 0 (by decide))
  obtain ⟨-, -, hnowhere, -, -⟩ := addressable hkey hvalue (hexact 1 (by decide))
  refine ⟨by decide +kernel, hread, hstands (.inl nofun), ?_, ?_⟩
  · exact hreached _ (.entry rfl (.item rfl .here))
  · exact hnowhere (Scalar.part?_eq_none_iff.mp rfl)

example :
    let script := "a.b[\"\\\"][0] == (x) && !\\\\\"][0]==\"v\"".toList
    let value : Scalar := .map [("\"][0] == (x) && !\\".toList, .list [.text ['v']])]
    Script.run .builtin script (some { values := [("a.b".toList, value)] }) = .ok true := by
  decide +kernel

end Symbol

end Criteria
