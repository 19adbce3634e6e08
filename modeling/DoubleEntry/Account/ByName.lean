import DoubleEntry.Account.Registry

/-! Accounts kept by their names, without indices: what a registry amounts to. -/
namespace DoubleEntry

/-- Every segment of an account that was ever opened, and the windows of those accounts, both in the
order in which they first came. -/
structure NamedAccounts where
  segments : List String
  windows : KeyedList AccountName (List Window)
  deriving Repr

namespace NamedAccounts

def empty : NamedAccounts := ⟨[], .empty⟩

def size (n : NamedAccounts) : Nat := n.windows.size

/-- Puts new segments at the end, from left to right. -/
def addSegments (known : List String) (segments : List String) : List String :=
  segments.foldl (fun known segment => if segment ∈ known then known else known ++ [segment]) known

/-- An open-ended latest window gives way to the new one; a closed one stays. -/
def reopen (windows : List Window) (day : Date) : List Window :=
  (if windows.getLast?.any Window.isClosed then windows else windows.dropLast) ++ [.openFrom day]

def openAt (n : NamedAccounts) (account : AccountName) (day : Date) : NamedAccounts :=
  ⟨addSegments n.segments account.segments,
    n.windows.alter account fun windows => reopen (windows.getD []) day⟩

def windowsOf (n : NamedAccounts) (account : AccountName) : List Window :=
  (n.windows.get? account).getD []

def closeAt (n : NamedAccounts) (account : AccountName) (day : Date) :
    Except AccountError NamedAccounts :=
  match (n.windowsOf account).getLast? with
  | none => .error (.closeUnopened account day)
  | some ⟨opened, closed, _⟩ =>
    match closed with
    | some closed => .error (.alreadyClosed account day closed)
    | none =>
      match Window.ofDates opened (some day) with
      | .error _ => .error (.closesBeforeOpening account day opened)
      | .ok window =>
        .ok { n with windows :=
                n.windows.insert account ((n.windowsOf account).dropLast ++ [window]) }

def isOpen (n : NamedAccounts) (account : AccountName) (day : Date) : Bool :=
  (n.windowsOf account).any (·.validAt day)

/-- Why an account may not be used on a day, if so. -/
def refusal? (n : NamedAccounts) (account : AccountName) (day : Date) : Option AccountError :=
  match account.segments.find? (· ∉ n.segments) with
  | some segment => some (.unknownSegment account day segment)
  | none =>
    if account ∉ n.windows.keys then some (.neverOpened account day)
    else if n.isOpen account day then none
    else some (.outsideWindows account day)

end NamedAccounts
end DoubleEntry
