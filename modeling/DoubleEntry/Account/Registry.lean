import DoubleEntry.Account.Name
import DoubleEntry.Account.Window
import DoubleEntry.Collection.KeyedList
import DoubleEntry.Collection.NameTable

/-! The accounts ever opened, with their windows. Segments of all kinds share one table, and an
account is known by its kind and the indices of its segments. -/
namespace DoubleEntry

structure AccountRef where
  kind : AccountKind
  segments : List Int
  deriving DecidableEq, Repr

inductive AccountError where
  | invalidText (text : String)
  | unknownSegment (account : AccountName) (day : Date) (segment : String)
  | neverOpened (account : AccountName) (day : Date)
  | outsideWindows (account : AccountName) (day : Date)
  | closesBeforeOpening (account : AccountName) (day opened : Date)
  | closeUnopened (account : AccountName) (day : Date)
  | alreadyClosed (account : AccountName) (day closed : Date)
  | undefinedIndex (index : Int)
  deriving DecidableEq, Repr

namespace AccountError

def notOpened (account : AccountName) (day : Date) : String :=
  "account `" ++ account.text ++ "' is not opened at " ++ day.text

def cannotClose (account : AccountName) (day : Date) : String :=
  "cannot close account `" ++ account.text ++ "' at " ++ day.text

def message : AccountError → String
  | .invalidText text => "input `" ++ text ++ "' is not a valid token for Account"
  | .unknownSegment account day segment =>
    notOpened account day ++ ": unknown segment `" ++ segment ++ "'"
  | .neverOpened account day => notOpened account day ++ ": no open record"
  | .outsideWindows account day => notOpened account day
  | .closesBeforeOpening account day opened =>
    notOpened account day ++ ": opened at " ++ opened.text
  | .closeUnopened account day => cannotClose account day ++ ": account was never opened"
  | .alreadyClosed account day closed =>
    cannotClose account day ++ ": already closed at " ++ closed.text
  | .undefinedIndex index => "undefined account segment index " ++ toString index

/-- The name under which an error is reported. -/
def kind : AccountError → String
  | .invalidText _ => "InvalidAccount"
  | .unknownSegment .. => "UnknownSegment"
  | .neverOpened .. => "UnresolvedAccount"
  | .outsideWindows .. | .closesBeforeOpening .. => "AccountNotValidAtDate"
  | .closeUnopened .. => "CloseWithoutOpen"
  | .alreadyClosed .. => "DuplicateClose"
  | .undefinedIndex _ => "AccountError"

end AccountError

def AccountName.ofText (text : String) : Except AccountError AccountName :=
  match ofText? text with
  | some account => .ok account
  | none => .error (.invalidText text)

/-- Why an account reference names no account. -/
inductive RefError where
  | account (error : AccountError)
  | name (error : NameError)
  deriving DecidableEq, Repr

structure AccountRegistry where
  segments : NameTable
  windows : KeyedList AccountRef Windows
  deriving Repr

namespace AccountRegistry

def empty : AccountRegistry := ⟨.empty, .empty⟩

/-- The number of accounts ever opened. -/
def size (r : AccountRegistry) : Nat := r.windows.size

/-- The reference of a name whose segments are all known. -/
def ref? (r : AccountRegistry) (account : AccountName) : Option AccountRef :=
  (account.segments.mapM r.segments.index?).map (⟨account.kind, ·⟩)

/-- Opens an account, or opens it again. -/
def openAt (r : AccountRegistry) (account : AccountName) (day : Date) :
    AccountRegistry × AccountRef :=
  let (segments, indices) := r.segments.internAll account.segments
  let ref : AccountRef := ⟨account.kind, indices⟩
  let reopened (windows : Option Windows) : Windows :=
    match windows with
    | none => .first day
    | some windows => windows.reopen day
  (⟨segments, r.windows.alter ref reopened⟩, ref)

/-- Closes the latest window of an account. -/
def closeAt (r : AccountRegistry) (account : AccountName) (day : Date) :
    Except AccountError (AccountRegistry × AccountRef) :=
  match r.ref? account with
  | none => .error (.closeUnopened account day)
  | some ref =>
    match r.windows.get? ref with
    | none => .error (.closeUnopened account day)
    | some windows =>
      match windows.latest.closed with
      | some closed => .error (.alreadyClosed account day closed)
      | none =>
        match Window.ofDates windows.latest.opened (some day) with
        | .error _ => .error (.closesBeforeOpening account day windows.latest.opened)
        | .ok latest =>
          .ok ({ r with windows := r.windows.insert ref { windows with latest } }, ref)

/-- The reference of an account that may be used on a day. -/
def resolve (r : AccountRegistry) (account : AccountName) (day : Date) :
    Except AccountError AccountRef :=
  match account.segments.find? fun segment => (r.segments.index? segment).isNone with
  | some segment => .error (.unknownSegment account day segment)
  | none =>
    match r.ref? account with
    | none => .error (.neverOpened account day)
    | some ref =>
      match r.windows.get? ref with
      | none => .error (.neverOpened account day)
      | some windows =>
        if windows.validAt day then .ok ref else .error (.outsideWindows account day)

/-- The name behind a reference, whatever its windows. -/
def unresolve (r : AccountRegistry) (ref : AccountRef) : Except RefError AccountName := do
  let segments ← ref.segments.mapM fun index =>
    match r.segments.name? index with
    | some segment => .ok segment
    | none => .error (.account (.undefinedIndex index))
  (AccountName.ofParts ref.kind segments).mapError .name

/-- The windows of an account in the order of opening; none if it was never opened. -/
def windowsOf (r : AccountRegistry) (account : AccountName) : List Window :=
  match (r.ref? account).bind r.windows.get? with
  | none => []
  | some windows => windows.toList

def isOpen (r : AccountRegistry) (account : AccountName) (day : Date) : Bool :=
  (r.windowsOf account).any (·.validAt day)

/-- References of one kind in the order of first opening. -/
def refsOf (r : AccountRegistry) (kind : AccountKind) : List AccountRef :=
  r.windows.keys.filter (·.kind = kind)

/-- The accounts of the given kinds; every reference in the registry has a name. -/
def accountsOf (r : AccountRegistry) (kinds : List AccountKind) : List AccountName :=
  (kinds.flatMap r.refsOf).filterMap fun ref => (r.unresolve ref).toOption

def accounts (r : AccountRegistry) : List AccountName := r.accountsOf AccountKind.all

def summary (r : AccountRegistry) : String :=
  "AccountStore(" ++ toString r.size ++ " accounts, " ++ toString r.segments.size ++ " segments)"

end AccountRegistry
end DoubleEntry
