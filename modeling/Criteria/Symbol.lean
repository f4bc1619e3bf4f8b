import Criteria.Context

/-!
Symbols name values of a context. The indexers after the key lead into lists and
maps.
-/

namespace Criteria

/-- One step into a value: the entry of a map or the item of a list. -/
inductive Indexer where
  | key (key : Text)
  | position (index : Nat)
deriving DecidableEq, Repr

/-- The part of a value which an indexer leads to. -/
def Indexer.apply? : Indexer → Scalar → Option Scalar
  | key name, .map entries => Table.find? name entries
  | position index, .list items => items[index]?
  | _, _ => none

/-- A symbol with the text that writes it. -/
structure Symbol where
  source : Text
  key : Text
  indexers : List Indexer
deriving DecidableEq, Repr

namespace Symbol

/-- The value of a symbol, if it has one. In the default context a key that is not
resolved has none. -/
def lookup (symbol : Symbol) (context : Context) : Except Error (Option Scalar) :=
  match context.resolve symbol.key with
  | .ok value => .ok (symbol.indexers.foldlM (fun value indexer => indexer.apply? value) value)
  | .error error =>
      if error.code? = some .unresolvedSymbol ∧ context.isDefault then .ok none
      else .error error

end Symbol

end Criteria
