import DoubleEntry.Load.Basic

/-! The ledgers that loads lead to from an empty one. -/
namespace DoubleEntry

/-- A load that fails leads to no new ledger. -/
inductive Ledger.Loaded : Ledger → Prop where
  | empty (verbose : Bool) : Loaded (.empty verbose)
  | load {l after : Ledger} (files : Files) (text : String) (source : Option String) :
      Loaded l → (l.load files text source).result = .ok after → Loaded after
  | loadPath {l after : Ledger} (files : Files) (path : String) :
      Loaded l → (l.loadPath files path).result = .ok after → Loaded after

end DoubleEntry
