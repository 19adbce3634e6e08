import DoubleEntry.Date

/-! The times at which an account may be used. -/
namespace DoubleEntry

/-- From the opening day on; a closing day is the first on which the account is closed again. -/
structure Window where
  opened : Date
  closed : Option Date
  opened_le_closed : ∀ day ∈ closed, opened ≤ day
  deriving DecidableEq, Repr

/-- A window that would close before it opens. -/
structure WindowError where
  opened : Date
  closed : Date
  deriving DecidableEq, Repr

def WindowError.message (e : WindowError) : String :=
  "window closes (" ++ e.closed.text ++ ") before it opens (" ++ e.opened.text ++ ")"

namespace Window

def openFrom (day : Date) : Window := ⟨day, none, by simp⟩

def ofDates (opened : Date) : Option Date → Except WindowError Window
  | none => .ok (openFrom opened)
  | some closed =>
    if h : opened ≤ closed then .ok ⟨opened, some closed, by simpa using h⟩
    else .error ⟨opened, closed⟩

def isClosed (w : Window) : Bool := w.closed.isSome

def validAt (w : Window) (day : Date) : Bool :=
  w.opened ≤ day && w.closed.all fun closed => day < closed

end Window

/-- The windows of one account in the order of opening; only the latest may be open-ended. -/
structure Windows where
  earlier : List Window
  latest : Window
  earlier_closed : ∀ w ∈ earlier, w.isClosed = true
  deriving DecidableEq, Repr

namespace Windows

def first (day : Date) : Windows := ⟨[], .openFrom day, by simp⟩

def toList (ws : Windows) : List Window := ws.earlier ++ [ws.latest]

/-- Moves the start of an open-ended window, or begins a new window after a closed one. -/
def reopen (ws : Windows) (day : Date) : Windows :=
  if h : ws.latest.isClosed then
    ⟨ws.earlier ++ [ws.latest], .openFrom day, by
      simp only [List.mem_append, List.mem_singleton]
      rintro w (mem | rfl)
      · exact ws.earlier_closed w mem
      · exact h⟩
  else { ws with latest := .openFrom day }

def validAt (ws : Windows) (day : Date) : Bool := ws.toList.any (·.validAt day)

end Windows
end DoubleEntry
