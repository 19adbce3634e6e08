import DoubleEntry.Token.Scan

/-! The grammar of the directives. A directive takes one line; a transaction also takes the indented
lines below its header. -/
namespace DoubleEntry

namespace Line

/-- Nothing but a gap and a comment. -/
def isVacant (line : Line) : Bool := line.cursor.atLineEnd

/-- Starts with a blank and has something else on it; such lines belong to the header above. -/
def isIndented (line : Line) : Bool :=
  line.chars.head?.any Text.isBlank && !line.chars.all Text.isBlank

/-- The first character that is not blank starts a comment. -/
def isComment (line : Line) : Bool := (Text.trimStart line.chars).head? = some commentMark

end Line

namespace Scan

def amount : Scan Token := node .amount do
  let nominal ← lexeme .nominal
  gap "the currency"
  let currency ← lexeme .currency
  return [nominal, currency]

/-- Whether a price follows; if so, its mark has been read. -/
def priceFollows : Scan Bool := fun c =>
  if c.rest.head?.any Text.isGap && firstWord c.skipGap.rest = [priceMark] then
    .ok (true, c.skipGap.advance 1)
  else .ok (false, c)

def amountWithPrice : Scan Token := node .amountWithPrice do
  let amount ← amount
  if ← priceFollows then
    gap "the price"
    return [amount, ← Scan.amount]
  else return [amount]

def isAtLineEnd : Scan Bool := fun c => .ok (c.atLineEnd, c)

def option : Scan Token := lineOf .option do
  keyword "option"
  gap "the option key"
  let key ← lexeme .string
  gap "the option value"
  return [key, ← lexeme .string]

def includeFile : Scan Token := lineOf .includeFile do
  keyword "include"
  gap "the include path"
  return [← lexeme .string]

def unit : Scan Token := lineOf .unit do
  keyword "unit"
  gap "the currency code"
  return [← lexeme .currency]

def posting : Scan Token := lineOf .posting do
  let account ← lexeme .account
  if ← isAtLineEnd then return [account]
  else
    gap "the amount"
    return [account, ← amountWithPrice]

/-- The words that name the dated statements, except transactions. -/
def statementWords : List (String × Rule) :=
  [("custom", .custom), ("open", .openAccount), ("close", .closeAccount), ("pad", .pad),
    ("balance", .balance), ("price", .price)]

/-- The keyword at the front and its statement; a flag stands for a transaction and is left to be
read with the header. -/
def statementAhead? (cs : List Char) : Option (String × Rule) :=
  match statementWords.find? fun (word, _) => startsWith word cs with
  | some found => some found
  | none => if Lexeme.isFlag (firstWord cs) then some ("", .transaction) else none

/-- Date and keyword of a dated statement, which has to be of the wanted kind if one is given. -/
def opening (wanted : Option Rule) : Scan (Token × Rule) := do
  let date ← lexeme .date
  gap "the statement keyword"
  match statementAhead? (← get).rest with
  | none => fail .statementKeyword
  | some (word, rule) =>
    if let some other := wanted then
      if rule ≠ other then fail (.statement other)
    modify (·.advance word.length)
    return (date, rule)

/-- What follows the keyword of each one-line statement. -/
def arguments : Rule → Scan (List Token)
  | .custom => do
    gap "the custom arguments"
    let first ← lexeme .string
    return first :: (← furtherStrings)
  | .pad => do
    gap "the target account"
    let target ← lexeme .account
    gap "the source account"
    return [target, ← lexeme .account]
  | .balance => do
    gap "the account"
    let account ← lexeme .account
    gap "the amount"
    return [account, ← amount]
  | .price => do
    gap "the currency code"
    let currency ← lexeme .currency
    gap "the price"
    return [currency, ← amount]
  | _ => do
    gap "the account"
    return [← lexeme .account]

/-- One string is the title; two are the payee and the title. -/
def header : Scan Token := node .txnHeader do
  let flag ← lexeme .flag
  gap "the transaction title"
  let first ← lexeme .string
  if ← isAtLineEnd then return [flag, first]
  else
    gap "the transaction title"
    return [flag, first, ← lexeme .string]

end Scan

/-- The postings among indented lines; the other lines are comments. -/
def postingsOf (body : List Line) : Except Stray (List Token) :=
  (body.filter (!·.isComment)).mapM fun line => (·.1) <$> Scan.posting line.cursor.skipGap

/-- The offset after the indented lines below a header: where the next line starts, or else where
the text ends. -/
def offsetBelow (header : Line) (body : List Line) : List Line → Nat
  | next :: _ => next.start
  | [] => (body.getLastD header).stop

/-- Header and postings of a transaction that starts at a cursor and has been read up to its flag.
Its text reaches over all its lines. -/
def transactionFrom (start : Cursor) (date : Token) (below : List Line) : Scan Token := do
  let header ← Scan.header
  Scan.lineEnd
  let body := below.takeWhile (·.isIndented)
  let postings ← postingsOf body
  if postings = [] then
    throw ⟨offsetBelow start.line body (below.dropWhile (·.isIndented)), .posting⟩
  let chars := Text.joinWith '\n' (start.rest :: body.map Line.chars)
  return ⟨.transaction, .ofList (Text.trimEnd chars), start.position,
    [date, header, ⟨.txnList, "", ⟨start.line.number + 1, 1⟩, postings⟩]⟩

/-- A dated statement, of the wanted kind if one is given, and the lines left below it. -/
def dated (wanted : Option Rule) (below : List Line) : Scan (Token × List Line) := do
  let start ← get
  let (date, rule) ← Scan.opening wanted
  if rule = .transaction then
    let token ← transactionFrom start date below
    return (token, below.dropWhile (·.isIndented))
  else
    let children ← Scan.arguments rule
    let token ← Scan.nodeFrom start rule (date :: children)
    Scan.lineEnd
    return (token, below)

theorem dated_left {wanted : Option Rule} {below left : List Line} {c next : Cursor} {token : Token}
    (h : dated wanted below c = .ok ((token, left), next)) :
    left = below ∨ left = below.dropWhile (·.isIndented) := by
  simp only [dated, Scan.bind_apply, Scan.get_apply] at h
  split at h
  · contradiction
  · split at h
    · simp only [Scan.bind_apply, Scan.pure_apply] at h
      split at h
      · contradiction
      · cases h
        exact .inr rfl
    · simp only [Scan.bind_apply, Scan.pure_apply] at h
      repeat' (split at h; contradiction)
      cases h
      exact .inl rfl

/-- A dated statement of any kind inside a token of its own. -/
def statement (below : List Line) : Scan (Token × List Line) := do
  let (token, left) ← dated none below
  return (⟨.statement, token.text, token.position, [token]⟩, left)

/-- The directive that starts on a line, and the lines left below it. -/
def directive (line : Line) (below : List Line) : Except Stray (Token × List Line) :=
  let c := line.cursor
  let alone (scan : Scan Token) : Except Stray (Token × List Line) :=
    (fun result => (result.1, below)) <$> scan c
  if line.chars.head?.any Text.isBlank then .error ⟨c.skipGap.offset, .unindented⟩
  else if Scan.startsWith "option" line.chars then alone Scan.option
  else if Scan.startsWith "include" line.chars then alone Scan.includeFile
  else if Scan.startsWith "unit" line.chars then alone Scan.unit
  else if Date.hasForm (firstWord line.chars) then (·.1) <$> statement below c
  else .error ⟨c.offset, .directive⟩

/-- How a line is taken as a directive is settled by its characters: it is none, it is what one of
the scans for keywords makes of it, or it is a statement. -/
theorem directive_cases (chars : List Char) :
    (∀ (line : Line) (below : List Line), line.chars = chars → ∃ stray,
      directive line below = .error stray ∧
        (stray.offset = line.cursor.skipGap.offset ∨ stray.offset = line.cursor.offset)) ∨
    (∃ scan ∈ [Scan.option, Scan.includeFile, Scan.unit],
      ∀ (line : Line) (below : List Line), line.chars = chars →
        directive line below = (fun found => (found.1, below)) <$> scan line.cursor) ∨
    ∀ (line : Line) (below : List Line), line.chars = chars →
      directive line below = (·.1) <$> statement below line.cursor := by
  unfold directive
  by_cases hblank : chars.head?.any Text.isBlank = true
  · exact .inl fun line below h => ⟨_, by rw [h, if_pos hblank], .inl rfl⟩
  by_cases hoption : Scan.startsWith "option" chars = true
  · exact .inr (.inl ⟨_, .head _, fun line below h => by rw [h, if_neg hblank, if_pos hoption]⟩)
  by_cases hinclude : Scan.startsWith "include" chars = true
  · refine .inr (.inl ⟨_, .tail _ (.head _), fun line below h => ?_⟩)
    rw [h, if_neg hblank, if_neg hoption, if_pos hinclude]
  by_cases hunit : Scan.startsWith "unit" chars = true
  · refine .inr (.inl ⟨_, .tail _ (.tail _ (.head _)), fun line below h => ?_⟩)
    rw [h, if_neg hblank, if_neg hoption, if_neg hinclude, if_pos hunit]
  by_cases hdate : Date.hasForm (firstWord chars) = true
  · refine .inr (.inr fun line below h => ?_)
    rw [h, if_neg hblank, if_neg hoption, if_neg hinclude, if_neg hunit, if_pos hdate]
  · refine .inl fun line below h => ⟨⟨line.cursor.offset, .directive⟩, ?_, .inr rfl⟩
    rw [h, if_neg hblank, if_neg hoption, if_neg hinclude, if_neg hunit, if_neg hdate]

theorem Scan.forall_keywordLine {P : Scan Token → Prop} (hoption : P Scan.option)
    (hinclude : P Scan.includeFile) (hunit : P Scan.unit) :
    ∀ scan ∈ [Scan.option, Scan.includeFile, Scan.unit], P scan :=
  List.forall_mem_cons.2 ⟨hoption, List.forall_mem_cons.2 ⟨hinclude,
    List.forall_mem_singleton.2 hunit⟩⟩

/-- A directive leaves the lines below it, perhaps without the indented ones at their front. -/
theorem directive_left {line : Line} {below left : List Line} {token : Token}
    (h : directive line below = .ok (token, left)) :
    left = below ∨ left = below.dropWhile (·.isIndented) := by
  rcases directive_cases line.chars with hstray | ⟨scan, -, hscan⟩ | hstatement
  · obtain ⟨stray, hstray, -⟩ := hstray line below rfl
    rw [hstray] at h
    contradiction
  · rw [hscan line below rfl] at h
    cases hs : scan line.cursor with
    | error stray => rw [hs] at h; contradiction
    | ok result => rw [hs] at h; cases h; exact .inl rfl
  · rw [hstatement line below rfl] at h
    cases hs : statement below line.cursor with
    | error stray => rw [hs] at h; contradiction
    | ok result =>
      obtain ⟨⟨token, left⟩, next⟩ := result
      rw [hs] at h
      cases h
      simp only [statement, Scan.bind_apply, Scan.pure_apply] at hs
      split at hs
      · contradiction
      · rename_i pair next hd
        cases hs
        exact dated_left hd

theorem directive_left_length_le {line : Line} {below left : List Line} {token : Token}
    (h : directive line below = .ok (token, left)) : left.length ≤ below.length := by
  rcases directive_left h with rfl | rfl
  · exact Nat.le_refl _
  · exact (List.dropWhile_sublist _).length_le

end DoubleEntry
