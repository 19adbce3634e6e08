import DoubleEntry.Source.Counting
import DoubleEntry.Token.Reading
import Mathlib.Logic.Function.Iterate

/-! Reading as a sequence of stages. A stage is at an offset of the text, and a step is one round of
a loop there: over vacant lines, over the strings on a line, or over the lines below a header. -/
namespace DoubleEntry

namespace Source

/-- The last of the lines that start up to the offset. -/
def lineOf (s : Source) (offset : Nat) : Line :=
  (s.lines.takeWhile (·.start ≤ offset)).getLastD s.firstLine

def cursorAt (s : Source) (offset : Nat) : Cursor :=
  ⟨s.lineOf offset, offset - (s.lineOf offset).start⟩

/-- Behind the next line feed, or at the end of the text. -/
def pastLine (s : Source) (offset : Nat) : Nat :=
  min (offset + ((s.chars.drop offset).takeWhile (· ≠ '\n')).length + 1) s.chars.length

/-- Past the line of the offset, if only a gap and a comment are left on it and it is not the end of
the text. -/
def pastVacant? (s : Source) (offset : Nat) : Option Nat :=
  if offset < s.chars.length ∧ (s.cursorAt offset).atLineEnd ∧ s.pastLine offset ≠ offset then
    some (s.pastLine offset)
  else none

def refuse (s : Source) (stray : Stray) : ReadingError := .stray (s.located stray)

end Source

/-- What a text is read for: its directives, besides those that have been found, or one token. -/
inductive ScanGoal where
  | ledger (found : List Token)
  | alone (rule : Rule)

/-- A transaction that has been read up to the end of its header, with the offset below that. -/
structure OpenTransaction where
  start : Cursor
  date : Token
  header : Token
  first : Nat

inductive ScanStage where
  | seeking (goal : ScanGoal) (offset : Nat)
  | listing (goal : ScanGoal) (start : Cursor) (children : List Token) (c : Cursor)
  | posting (goal : ScanGoal) (transaction : OpenTransaction) (found : List Token) (offset : Nat)
  | closing (token : Token) (offset : Nat)
  | ended (result : Except ReadingError (List Token))

/-- A dated statement inside a token of its own. -/
def Token.asStatement (d : Token) : Token := ⟨.statement, d.text, d.position, [d]⟩

/-- The transaction with its postings, up to an offset. -/
def OpenTransaction.close (s : Source) (transaction : OpenTransaction) (postings : List Token)
    (offset : Nat) : Token :=
  ⟨.transaction, .ofList (Text.trimEnd (s.slice transaction.start.offset offset)),
    transaction.start.position,
    [transaction.date, transaction.header,
      ⟨.txnList, "", s.position transaction.first, postings⟩]⟩

/-- A token from an earlier place of the line up to the cursor, with nothing more on the line. -/
def Scan.lastOnLine (start : Cursor) (rule : Rule) (children : List Token) : Scan Token := do
  let token ← nodeFrom start rule children
  lineEnd
  return token

/-- Behind a dated statement the text is read on, or may not go on. -/
def ScanGoal.reached (goal : ScanGoal) (d : Token) (offset : Nat) : ScanStage :=
  match goal with
  | .ledger found => .seeking (.ledger (found ++ [d.asStatement])) offset
  | .alone .statement => .closing d.asStatement offset
  | .alone _ => .closing d offset

namespace ScanStage

def astray (s : Source) (stray : Stray) : ScanStage := .ended (.error (s.refuse stray))

/-- The stage behind a scan, unless the scan goes astray. -/
def after {α : Type} (s : Source) (result : Except Stray (α × Cursor))
    (stage : α → Cursor → ScanStage) : ScanStage :=
  match result with
  | .error stray => astray s stray
  | .ok (a, c) => stage a c

/-- Begins a dated statement, of the wanted kind if one is given. -/
def beginDated (s : Source) (goal : ScanGoal) (wanted : Option Rule) (start : Cursor) : ScanStage :=
  after s (Scan.opening wanted start) fun (date, rule) c =>
    match rule with
    | .transaction =>
      after s ((do let header ← Scan.header; Scan.lineEnd; return header) c) fun header stop =>
        let below := s.pastLine stop.offset
        .posting goal ⟨start, date, header, below⟩ [] below
    | .custom =>
      after s ((do Scan.gap "the custom arguments"; Scan.lexeme .string) c) fun first stop =>
        .listing goal start [date, first] stop
    | rule =>
      after s ((do Scan.lastOnLine start rule (date :: (← Scan.arguments rule))) c) fun d stop =>
        goal.reached d (s.pastLine stop.offset)

def beginDirective (s : Source) (found : List Token) (offset : Nat) : ScanStage :=
  let c := s.cursorAt offset
  let line (scan : Scan Token) : ScanStage :=
    after s (scan c) fun t stop =>
      .seeking (.ledger (found ++ [t])) (s.pastLine stop.offset)
  if c.rest.head?.any Text.isBlank then astray s ⟨c.skipGap.offset, .unindented⟩
  else if Scan.startsWith "option" c.rest then line Scan.option
  else if Scan.startsWith "include" c.rest then line Scan.includeFile
  else if Scan.startsWith "unit" c.rest then line Scan.unit
  else if Date.hasForm (firstWord c.rest) then beginDated s (.ledger found) none c
  else astray s ⟨offset, .directive⟩

def beginToken (s : Source) (rule : Rule) (offset : Nat) : ScanStage :=
  let c := (s.cursorAt offset).skipGap
  let line (scan : Scan Token) : ScanStage :=
    after s (scan c) fun t stop => .closing t (s.pastLine stop.offset)
  let part (scan : Scan Token) : ScanStage :=
    after s (scan c) fun t stop => .closing t stop.offset
  match rule with
  | .option => line Scan.option
  | .includeFile => line Scan.includeFile
  | .unit => line Scan.unit
  | .posting => line Scan.posting
  | .statement => beginDated s (.alone .statement) none c
  | .custom | .openAccount | .closeAccount | .pad | .balance | .price | .transaction =>
    beginDated s (.alone rule) rule c
  | .date => part (Scan.lexeme .date)
  | .string => part (Scan.lexeme .string)
  | .account => part (Scan.lexeme .account)
  | .currency => part (Scan.lexeme .currency)
  | .amount => part Scan.amount
  | .amountWithPrice => part Scan.amountWithPrice
  | .ledger | .txnHeader | .txnState | .txnList | .nominal => .ended (.error (.notAlone rule))

def next (s : Source) : ScanStage → ScanStage
  | .seeking goal offset =>
    match s.pastVacant? offset with
    | some below => .seeking goal below
    | none =>
      match goal with
      | .ledger found =>
        if s.chars.length ≤ offset then .ended (.ok found) else beginDirective s found offset
      | .alone rule => beginToken s rule offset
  | .listing goal start children c =>
    if c.atLineEnd then
      after s (Scan.lastOnLine start .custom children c) fun d stop =>
        goal.reached d (s.pastLine stop.offset)
    else
      after s (Scan.furtherString c) fun t stop => .listing goal start (children ++ [t]) stop
  | .posting goal transaction found offset =>
    let line := s.lineOf offset
    if offset < s.chars.length ∧ line.isIndented then
      if line.isComment then
        .posting goal transaction found (min (offset + line.chars.length + 1) s.chars.length)
      else
        after s (Scan.posting (s.cursorAt offset).skipGap) fun t stop =>
          .posting goal transaction (found ++ [t]) (s.pastLine stop.offset)
    else if found = [] then astray s ⟨offset, .posting⟩
    else goal.reached (transaction.close s found offset) offset
  | .closing token offset =>
    match s.pastVacant? offset with
    | some below => .closing token below
    | none =>
      let c := (s.cursorAt offset).skipGap
      if s.chars.length ≤ c.offset then .ended (.ok [token]) else astray s ⟨c.offset, .textEnd⟩
  | .ended result => .ended result

/-- The first stage of reading by a rule. -/
def opening : Rule → ScanStage
  | .ledger => .seeking (.ledger []) 0
  | rule => .seeking (.alone rule) 0

end ScanStage

namespace Source

/-- From the one offset the other is behind the rest of the line, and it is just behind a line feed
or at the end of the text. -/
structure PassesLine (s : Source) (offset later : Nat) : Prop where
  past : s.pastLine offset ≤ later
  le : later ≤ s.chars.length
  broken : later = s.chars.length ∨ (s.chars.take later).getLast? = some '\n'

/-- The tokens that reading by a rule leads to: the directives of a whole text, or one token. -/
def outcome (s : Source) (rule : Rule) : Except ReadingError (List Token) :=
  (fun t => if rule = .ledger then t.children else [t]) <$> s.token rule

end Source

/-- How far a round of each loop gets at a stage, and how far it is to the next directive. -/
structure ScanStage.RoundsAdvance (s : Source) (stage : ScanStage) : Prop where
  vacant : ∀ goal offset later, stage = .seeking goal offset → stage.next s = .seeking goal later →
    offset < later ∧ s.PassesLine offset later
  trailing : ∀ token offset later, stage = .closing token offset →
    stage.next s = .closing token later → offset < later ∧ s.PassesLine offset later
  posting : ∀ goal transaction found found' offset later,
    stage = .posting goal transaction found offset →
      stage.next s = .posting goal transaction found' later →
        offset < later ∧ s.PassesLine offset later
  argument : ∀ goal start children children' c c', stage = .listing goal start children c →
    stage.next s = .listing goal start children' c' → c.offset < c'.offset
  directive : ∀ found found' offset later steps, stage = .seeking (.ledger found) offset →
    (next s)^[steps] stage = .seeking (.ledger found') later → found.length < found'.length →
      offset < later ∧ s.PassesLine offset later

end DoubleEntry
