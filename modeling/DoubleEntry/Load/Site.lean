import DoubleEntry.Load.Basic

/-! Where a load fails: the directives that lead to a failure, each in its own text, and the text
that is at work when it happens. -/
namespace DoubleEntry

/-- A directive of a text. -/
structure Site where
  text : Source
  token : Token

namespace Site

/-- The text, the line of the directive in it, and the first line of the directive. -/
def note (site : Site) : String := noteOf site.text.name site.token

/-- The file that the directive includes, if it includes one. -/
def target? (site : Site) (files : Files) : Option String :=
  match Directive.ofToken site.token with
  | .ok (.includeFile path) => (files.resolve (files.includeTarget site.text.name path)).toOption
  | _ => none

/-- The directives in front of this one make the first ledger into the second. -/
def IsReached (files : Files) (stack : List String) (site : Site) (l middle : Ledger) : Prop :=
  ∃ before after, site.text.tokens = .ok (before ++ site.token :: after) ∧
    (l.loadTokens files stack site.text.name before).result = .ok middle

end Site

/-- Why a directive cannot be applied; files are not looked for. -/
def Ledger.refusal? (l : Ledger) (t : Token) : Option LoadError :=
  match Directive.ofToken t with
  | .error error => some (.meaning error)
  | .ok (.statement statement) =>
    match l.process statement with
    | .error error => some (.statement error)
    | .ok _ => none
  | .ok _ => none

/-- A text cannot be added to a ledger. Of the sites that lead to the failure the first is in this
text, and each of the others in the file that the one before it includes; the place is the text that
is at work when it happens. The stack are the files that are being loaded, the last of them that of
the text. -/
inductive FailsAt (files : Files) :
    List String → Ledger → Source → List Site → Source → LoadError → Prop where
  | text {stack : List String} {l : Ledger} {s : Source} {error : ParseError} :
      s.tokens = .error error → FailsAt files stack l s [] s (.parse error)
  | directive {stack : List String} {l middle : Ledger} {site : Site} {error : LoadError} :
      site.IsReached files stack l middle → middle.refusal? site.token = some error →
      FailsAt files stack l site.text [site] site.text error
  | cycle {stack : List String} {l middle : Ledger} {site : Site} {path : String} :
      site.IsReached files stack l middle → site.target? files = some path → path ∈ stack →
      FailsAt files stack l site.text [site] site.text (.cycle path stack)
  | unreadable {stack : List String} {l middle : Ledger} {site : Site} {path reason : String} :
      site.IsReached files stack l middle → site.target? files = some path → path ∉ stack →
      files.read path = .error reason →
      FailsAt files stack l site.text [site] site.text (.unreadable path reason)
  | inside {stack : List String} {l middle : Ledger} {site : Site} {path text : String}
      {sites : List Site} {place : Source} {error : LoadError} :
      site.IsReached files stack l middle → site.target? files = some path → path ∉ stack →
      files.read path = .ok text →
      FailsAt files (stack ++ [path]) middle (.ofText text (some path)) sites place error →
      FailsAt files stack l site.text (site :: sites) place error

/-! ## Errors that point into a text -/

/-- The error that points into a text, if it is one that does. -/
def LoadError.parseError? : LoadError → Option ParseError
  | .parse error => some error
  | .meaning (.invalidDate text position) => some (MeaningError.dateError text position)
  | _ => none

/-- The position is a column of the line; behind the last character there is one more. -/
def Line.Holds (line : Line) (position : Position) : Prop :=
  position.line = line.number ∧ 1 ≤ position.column ∧ position.column ≤ line.chars.length + 1

/-- Names the text, and shows the line of it that the position is on. -/
structure ParseError.Locates (e : ParseError) (s : Source) : Prop where
  source : e.source = s.name
  place : ∃ line ∈ s.lines, ∃ position, e.position = some position ∧ line.Holds position ∧
    e.lineText = .ofList line.chars

/-- The text that a load starts with, or a file under its resolved path. -/
def Source.IsFrom (s root : Source) (files : Files) : Prop :=
  s = root ∨ ∃ path text, files.read path = .ok text ∧ files.IsResolved path ∧
    s = .ofText text (some path)

/-- The failure of a text points into the place where the notes lead. An error from taking the place
apart locates itself there. An impossible date has the position at which it starts a line of the
place; it names no text and shows no line. -/
structure PointsInto (files : Files) (stack : List String) (l : Ledger) (root : Source)
    (failure : Failure) (sites : List Site) (place : Source) : Prop where
  fails : FailsAt files stack l root sites place failure.error
  notes : failure.notes = (sites.map Site.note).reverse
  isFrom : place.IsFrom root files
  strays : ∀ e, failure.error = .parse e → place.tokens = .error e ∧ e.Locates place
  dates : ∀ text position, failure.error = .meaning (.invalidDate text position) →
    (∃ line ∈ place.lines, line.Holds position ∧ position.column = 1 ∧ text.toList <+: line.chars) ∧
      ∃ e, failure.error.parseError? = some e ∧ e.position = some position ∧ e.source = none ∧
        e.lineText = ""

end DoubleEntry
