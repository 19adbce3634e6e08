import DoubleEntry.Proofs.Load.Cycles
import DoubleEntry.Proofs.Load.Notes
import DoubleEntry.Proofs.Statement.DatePlace
import DoubleEntry.Proofs.Token.Stray

/-! Errors that point into a text. What goes astray in reading names its text and shows the line; an
impossible date has its position only. -/
namespace DoubleEntry

/-! ## Errors of one text -/

theorem Line.holds_of_offset {line : Line} {offset : Nat} (hstart : line.start ≤ offset)
    (hstop : offset ≤ line.stop) : line.Holds ⟨line.number, offset - line.start + 1⟩ := by
  unfold stop at hstop
  refine ⟨rfl, Nat.succ_le_succ (Nat.zero_le _), ?_⟩
  change offset - line.start + 1 ≤ _
  omega

theorem Source.locates_of_tokens {s : Source} {error : ParseError} (h : s.tokens = .error error) :
    error.Locates s := by
  unfold tokens at h
  cases hstray : directives s.lines with
  | ok tokens =>
    rw [hstray] at h
    contradiction
  | error stray =>
    rw [hstray] at h
    cases h
    have hoffset := offset_le_of_directives s.linesFrom_lines stray hstray
    obtain ⟨line, hmem, _, hstart, hstop, hposition, hchars⟩ := exists_line_of_offset hoffset
    refine ⟨rfl, line, hmem, _, rfl, ?_, ?_⟩
    · rw [hposition]
      exact Line.holds_of_offset hstart hstop
    · rw [located, hchars]

/-- The date stands at the front of a line of the text. -/
theorem Source.exists_line_of_invalidDate {s : Source} {tokens : List Token}
    (htokens : s.tokens = .ok tokens) {t : Token} (ht : t ∈ tokens) {text : String}
    {position : Position} (h : Directive.ofToken t = .error (.invalidDate text position)) :
    ∃ line ∈ s.lines, line.Holds position ∧ position.column = 1 ∧ text.toList <+: line.chars := by
  obtain ⟨line, hline, hfront⟩ := exists_datesFront_of_mem htokens ht
  obtain ⟨rfl, hprefix⟩ := hfront text position h
  exact ⟨line, hline, ⟨rfl, Nat.le_refl _, Nat.succ_le_succ (Nat.zero_le _)⟩, rfl, hprefix⟩

/-- The errors that point into a text are those that go by that name. -/
theorem LoadError.kind?_eq_parseError_iff {error : LoadError} :
    error.kind? = some "ParseError" ↔
      ∃ e, error.parseError? = some e ∧ e.message = error.message := by
  cases error with
  | parse error => exact ⟨fun _ => ⟨error, rfl, rfl⟩, fun _ => rfl⟩
  | meaning error =>
    cases error with
    | invalidDate text position => exact ⟨fun _ => ⟨_, rfl, rfl⟩, fun _ => rfl⟩
    | account error => cases error <;> simp [kind?, parseError?, AccountError.kind]
    | _ => simp [kind?, parseError?]
  | statement error =>
    cases error with
    | account error =>
      cases error <;> simp [kind?, parseError?, StatementError.kind?, AccountError.kind]
    | currency error => cases error <;> simp [kind?, parseError?, StatementError.kind?]
    | balance error =>
      cases error with
      | arithmetic error =>
        cases error <;>
          simp [kind?, parseError?, StatementError.kind?, BalanceError.kind, ArithmeticError.kind]
      | _ => simp [kind?, parseError?, StatementError.kind?, BalanceError.kind]
  | _ => simp [kind?, parseError?]

/-! ## Errors of a load -/

/-- A directive is refused for what it means or for what the ledger holds. -/
theorem Ledger.cause_of_refusal? {l : Ledger} {t : Token} {error : LoadError}
    (h : l.refusal? t = some error) :
    (∃ cause, error = .meaning cause ∧ Directive.ofToken t = .error cause) ∨
      ∃ cause, error = .statement cause := by
  unfold refusal? at h
  split at h
  · rename_i cause hmeaning
    cases h
    exact .inl ⟨cause, rfl, hmeaning⟩
  · split at h
    · cases h
      exact .inr ⟨_, rfl⟩
    · contradiction
  · contradiction

namespace FailsAt

variable {files : Files} {stack : List String} {l : Ledger} {s place : Source} {sites : List Site}
  {error : LoadError}

theorem isFrom (h : FailsAt files stack l s sites place error) : place.IsFrom s files := by
  induction h with
  | inside _ htarget _ hread _ ih =>
    rcases ih with rfl | hfile
    · exact .inr ⟨_, _, hread, Site.isResolved_target htarget, rfl⟩
    · exact .inr hfile
  | _ => exact .inl rfl

/-- The place cannot be taken apart, or it has a directive that has no meaning. -/
theorem cause (h : FailsAt files stack l s sites place error) :
    (∀ e, error = .parse e → place.tokens = .error e) ∧
      ∀ e, error = .meaning e →
        ∃ tokens, place.tokens = .ok tokens ∧ ∃ t ∈ tokens, Directive.ofToken t = .error e := by
  induction h with
  | text htokens =>
    refine ⟨?_, by simp⟩
    rintro _ ⟨⟩
    exact htokens
  | directive hreached hrefusal =>
    rcases Ledger.cause_of_refusal? hrefusal with ⟨e, rfl, hmeaning⟩ | ⟨e, rfl⟩
    · refine ⟨by simp, ?_⟩
      rintro _ ⟨⟩
      obtain ⟨tokens, htokens, hmem⟩ := hreached.mem
      exact ⟨tokens, htokens, _, hmem, hmeaning⟩
    · simp
  | cycle _ _ _ => simp
  | unreadable _ _ _ _ => simp
  | inside _ _ _ _ _ ih => exact ih

end FailsAt

namespace Ledger

theorem exists_pointsInto {files : Files} {stack : List String} {l : Ledger} {root : Source}
    (hname : ∀ file ∈ root.name, files.IsResolved file) {failure : Failure}
    (h : l.loadSource files stack root = .error failure) :
    ∃ sites place, PointsInto files stack l root failure sites place := by
  obtain ⟨error, notes⟩ := failure
  obtain ⟨sites, place, hfails, hnotes⟩ := (loadSource_eq_error_iff hname).1 h
  refine ⟨sites, place, hfails, hnotes, hfails.isFrom, fun e he => ?_, fun text position he => ?_⟩
  · have htokens := hfails.cause.1 e he
    exact ⟨htokens, Source.locates_of_tokens htokens⟩
  · obtain ⟨tokens, htokens, t, ht, hmeaning⟩ := hfails.cause.2 _ he
    refine ⟨Source.exists_line_of_invalidDate htokens ht hmeaning, ?_⟩
    obtain rfl : error = _ := he
    exact ⟨_, rfl, rfl, rfl, rfl⟩

/-- An error that goes by the name of errors in a text is in the root text or in a file that was read
for it, where the notes lead. If reading went astray there, the error names the text and shows the
line that its position is on; if a date is impossible, the error has the position of the date
only. -/
theorem parseErrors_point (l : Ledger) (files : Files) :
    (∀ error : LoadError, error.kind? = some "ParseError" ↔
      ∃ e, error.parseError? = some e ∧ e.message = error.message) ∧
    (∀ text source failure, (l.load files text source).result = .error failure →
      (∃ fault, files.nameOf source = .error fault ∧ failure = ⟨.unresolvable fault, []⟩) ∨
        ∃ name, files.nameOf source = .ok name ∧ ∃ sites place,
          PointsInto files name.toList l (.ofText text name) failure sites place) ∧
    ∀ path failure, (l.loadPath files path).result = .error failure →
      failure.error.kind? = some "ParseError" →
      ∃ target text, files.resolve (.ofText path) = .ok target ∧ files.read target = .ok text ∧
        ∃ sites place,
          PointsInto files [target] l (.ofText text (some target)) failure sites place := by
  refine ⟨fun error => LoadError.kind?_eq_parseError_iff, fun text source failure h => ?_,
    fun path failure h hkind => ?_⟩
  · cases hname : files.nameOf source with
    | error fault =>
      rw [l.load_of_unresolvable hname] at h
      exact .inl ⟨fault, rfl, (Except.error.inj h).symm⟩
    | ok name =>
      rw [l.result_load_eq_loadSource text hname] at h
      exact .inr ⟨name, rfl, exists_pointsInto (Files.isResolved_of_nameOf hname) h⟩
  · rcases result_loadPath_eq_error_iff.1 h with
      ⟨fault, _, rfl⟩ | ⟨target, htarget, ⟨reason, _, rfl⟩ | ⟨text, hread, hroot⟩⟩
    · simp [LoadError.kind?] at hkind
    · simp [LoadError.kind?] at hkind
    · have hresolved := Files.isResolved_of_resolve (Path.isRead_ofText path) htarget
      exact ⟨target, text, htarget, hread, exists_pointsInto hresolved.forall_mem_some hroot⟩

def februaryFiles : Files :=
  Files.empty.insert "/books/feb" (.text "2021-02-30 open Assets:Bank\n")

theorem exists_load_february :
    ∃ failure : Failure,
      ((empty false).load februaryFiles "include \"feb\"\n" (some "books/main")).result =
        .error failure ∧ failure.error = .meaning (.invalidDate "2021-02-30" ⟨1, 1⟩) := by
  have herror : errorOf? ((empty false).load februaryFiles "include \"feb\"\n"
      (some "books/main")).result = some (.meaning (.invalidDate "2021-02-30" ⟨1, 1⟩)) :=
    errorOf?_load 20 (by decide +kernel)
  cases hload : ((empty false).load februaryFiles "include \"feb\"\n" (some "books/main")).result with
  | ok after =>
    rw [hload] at herror
    contradiction
  | error failure =>
    rw [hload] at herror
    exact ⟨failure, rfl, Option.some.inj herror⟩

/-- The thirtieth of February, in a file that a text with a name includes. -/
theorem not_forall_parseErrors_locate :
    ¬ ∀ (l : Ledger) (files : Files) (text : String) (source name : Option String)
      (failure : Failure) (e : ParseError), files.nameOf source = .ok name →
      (l.load files text source).result = .error failure → failure.error.parseError? = some e →
      ∃ place : Source, place.IsFrom (.ofText text name) files ∧ e.Locates place := by
  intro h
  obtain ⟨failure, hload, herror⟩ := exists_load_february
  obtain ⟨place, hplace, hlocates⟩ :=
    h _ _ _ _ (some "/books/main") failure _ rfl hload (by rw [herror]; rfl)
  have hname : place.name = none := hlocates.source.symm
  rcases hplace with rfl | ⟨path, text, _, _, rfl⟩ <;> contradiction

theorem parseErrors_point_february :
    ∃ failure : Failure,
      ((empty false).load februaryFiles "include \"feb\"\n" (some "books/main")).result =
        .error failure ∧
      ∃ sites place, PointsInto februaryFiles ["/books/main"] (empty false)
        (.ofText "include \"feb\"\n" (some "/books/main")) failure sites place ∧
        ∃ line ∈ place.lines, "2021-02-30".toList <+: line.chars := by
  obtain ⟨failure, hload, herror⟩ := exists_load_february
  obtain ⟨-, htext, -⟩ := parseErrors_point (empty false) februaryFiles
  obtain ⟨_, ⟨⟩, _⟩ | ⟨_, ⟨⟩, sites, place, hpoints⟩ := htext _ _ _ hload
  obtain ⟨⟨line, hline, _, _, hfront⟩, -⟩ := hpoints.dates _ _ herror
  exact ⟨failure, hload, sites, place, hpoints, line, hline, hfront⟩

end Ledger
end DoubleEntry
