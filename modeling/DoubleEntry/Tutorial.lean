import DoubleEntry.Load.Basic
import DoubleEntry.Text.Literal

/-! A printed walk through the ledger format, step by step on one growing ledger. -/
namespace DoubleEntry.Tutorial

def linesOf (lines : List String) : String := String.join (lines.map (· ++ "\n"))

def rule : String := .ofList (List.replicate 70 '=')

/-- The rest of a field's width in spaces; none where the text is as wide already. -/
def fill (width : Nat) (text : String) : String := .ofList (List.replicate (width - text.length) ' ')

def header (number : Int) (title objective : String) : String :=
  linesOf ["", rule, "STEP " ++ toString number ++ ": " ++ title, rule, "",
    "Objective: " ++ objective, ""]

/-- The lines of a text after a bar, without blanks at the end. -/
def showSource (text : String) : String :=
  linesOf ((Text.displayLines (Text.trimEnd text.toList)).map ("    | " ++ .ofList ·) ++ [""])

def nameOf (l : Ledger) (ref : AccountRef) : String :=
  match l.accounts.unresolve ref with
  | .ok account => account.text
  | .error _ => ""

def showExchange (l : Ledger) (e : Exchange Int) : String :=
  let account := nameOf l e.account
  let amount := l.format e.amount
  "      " ++ account ++ fill 32 account ++ fill 24 amount ++ amount ++
    if e.elided then "  (inferred)" else ""

def showTransaction (l : Ledger) (day : Date) (t : Transaction Int) : String :=
  let flag := if t.state = .virtual then "~" else t.state.flag
  let payee := match t.payee with
    | some payee => if payee = "" then "" else payee ++ " / "
    | none => ""
  linesOf (("  " ++ day.text ++ " " ++ flag ++ " " ++ payee ++ t.title) ::
    t.exchanges.map (showExchange l))

def showTransactions (l : Ledger) : String :=
  String.join (l.transactions.map fun (day, t) => showTransaction l day t)

def showNames (names : List String) : String :=
  "[" ++ ", ".intercalate (names.map Text.literal) ++ "]"

/-- Parenthesised entries, with a comma after a single one. -/
def showTuple (entries : List String) : String :=
  "(" ++ ", ".intercalate entries ++ (if entries.length = 1 then "," else "") ++ ")"

/-- Adds a text that belongs to the tutorial to its ledger. -/
def extend (l : Ledger) (text : String) : Ledger × String :=
  let run := l.load .empty text none
  (match run.result with | .ok extended => extended | .error _ => l, run.output l.verbose)

def day (text : String) : List Date := (Date.ofText? text).toList

def setup : String :=
  linesOf ["unit USD", "unit EUR", "", "2021-10-25 open Assets:Bank:Jawir",
    "2021-10-25 open Assets:Cash", "2021-10-25 open Expenses:Dining",
    "2021-10-25 open Liabilities:Bank:CreditCard"]

def units : Ledger × String :=
  let (l, notices) := extend (.empty true) setup
  (l, header 1 "Units" "Currencies must be declared before any amount uses them." ++
    showSource setup ++ notices ++
    linesOf ["", "  Declared currencies: " ++ showNames l.currencies.codes.names])

def showAccount (l : Ledger) (account : AccountName) : String :=
  let indices := (l.accounts.ref? account).elim [] (·.segments)
  let kind := account.kind.text
  "  " ++ account.text ++ fill 32 account.text ++ " -> " ++ kind ++ fill 12 kind ++ " " ++
    showTuple (indices.map toString)

def accounts (l : Ledger) : String :=
  header 2 "Accounts" "Account paths share one segment table across all kinds." ++
    linesOf (l.accounts.accounts.map (showAccount l) ++
      ["", "  Segment table: " ++ showNames l.accounts.segments.names])

def windows (l : Ledger) : Ledger × String :=
  let text := linesOf ["2021-11-30 close Assets:Cash", "2022-01-01 open Assets:Cash"]
  let (l, notices) := extend l text
  let cash := AccountName.ofText? "Assets:Cash"
  let days := ["2021-10-24", "2021-11-15", "2021-12-15", "2022-01-02"].flatMap day
  let state (d : Date) : String :=
    let isOpen := cash.any (l.accounts.isOpen · d)
    "  Assets:Cash on " ++ d.text ++ ": " ++ if isOpen then "open" else "closed"
  (l, header 3 "Open windows" "An account is only usable between its open and close dates." ++
    showSource text ++ notices ++ linesOf (days.map state))

/-- A step that adds a text and then shows the ledger. -/
def addAndShow (heading : String) (text : String) (shown : Ledger → String) (l : Ledger) :
    Ledger × String :=
  let (l, notices) := extend l text
  (l, heading ++ showSource text ++ notices ++ shown l)

def elision : Ledger → Ledger × String :=
  addAndShow (header 4 "Elided amounts" "One posting may omit its amount; it is inferred.")
    (linesOf ["2021-10-28 * \"Warung\" \"Lunch\"", "    Expenses:Dining        199 USD",
      "    Assets:Bank:Jawir"])
    showTransactions

def prices : Ledger → Ledger × String :=
  addAndShow (header 5 "Price annotations" "`@` tells the balancer how to convert an amount.")
    (linesOf ["2021-10-29 ! \"Bistro\" \"Dinner in Paris\"",
      "    Liabilities:Bank:CreditCard  -55 USD", "    Expenses:Dining               50 EUR @ 1.1 USD"])
    showTransactions

def showIssues (l : Ledger) : String :=
  linesOf ((l.audit .withSum).flatMap fun (day, t, issues) => issues.map fun issue =>
    "  " ++ day.text ++ " " ++ t.title ++ ": " ++ issue.kind.name ++ " - " ++
      issue.message (CurrencyName.call <| .index ·))

def audit : Ledger → Ledger × String :=
  addAndShow (header 6 "Balance audit" "Written-out transactions load as-is; errors() audits them.")
    (linesOf ["2021-10-30 * \"Typo\"", "    Expenses:Dining        100 USD",
      "    Assets:Bank:Jawir      -10 USD"])
    showIssues

def failures (l : Ledger) : String :=
  let text := linesOf ["2021-10-20 * \"Too early\"", "    Expenses:Dining        5 USD",
    "    Assets:Bank:Jawir"]
  let shown := match (l.load .empty text (some "october.ledger")).result with
    | .ok _ => []
    | .error failure =>
      ("  " ++ failure.error.kind?.getD "" ++ ": " ++ failure.error.message) ::
        failure.notes.map ("    " ++ ·)
  header 7 "Errors" "Failures name the statement and keep the ledger unchanged." ++
    showSource text ++ linesOf shown

def accumulation (l : Ledger) : String :=
  let (more, notices) := extend l "2021-11-01 custom \"budget\" \"dining\" \"300\"\n"
  let entries := (day "2021-11-01").flatMap fun d => (more.book? d).elim [] (·.custom)
  header 8 "Accumulation" "parse(text, ledger) returns a new ledger." ++ notices ++
    linesOf ["  original days: " ++ toString l.days.length ++ ", extended days: " ++
        toString more.days.length,
      "  custom entries on 2021-11-01: [" ++
        ", ".intercalate (entries.map fun args => showTuple (args.map Text.literal)) ++ "]"]

def closing : String :=
  linesOf ["", rule, "       TUTORIAL COMPLETE!", rule, "", "    Next steps:",
    "      - Read roasted/grammar.py for the full syntax", "      - Run tests: pytest tests/", "    "]

/-- The whole tutorial. -/
def text : String :=
  let (l, first) := units
  let second := accounts l
  let (l, third) := windows l
  let (l, fourth) := elision l
  let (l, fifth) := prices l
  let (l, sixth) := audit l
  first ++ second ++ third ++ fourth ++ fifth ++ sixth ++ failures l ++ accumulation l ++ closing

end DoubleEntry.Tutorial
