import DoubleEntry.Proofs.Load.Stages

/-! Loads lead to a ledger or fail with an error of a ledger, with one exception: no file can have a
NUL in its path, and a load that is given such a path goes no further. -/
namespace DoubleEntry

namespace Run

variable {α : Type} {r : Run α}

/-- There is a result, or an error that is reported under a name. -/
def EndsNamed (r : Run α) : Prop :=
  (∃ a, r.result = .ok a) ∨
    ∃ failure, r.result = .error failure ∧ failure.error.isLedgerError = true

theorem endsNamed_of_failsWith
    (h : FailsWith r.result fun failure => failure.error.isLedgerError = true) : r.EndsNamed := by
  cases hresult : r.result with
  | ok a => exact .inl ⟨a, hresult⟩
  | error failure => exact .inr ⟨failure, hresult, h failure hresult⟩

theorem not_endsNamed_unresolvable (error : PathError) :
    ¬ (fail (.unresolvable error) : Run α).EndsNamed := by
  rintro (⟨a, hresult⟩ | ⟨failure, hresult, hnamed⟩)
  · contradiction
  · cases hresult
    contradiction

/-- The one error without a name is that of the file that is loaded, if one is given: it is there
before anything is read or announced, and nothing is noted on it. -/
structure EndsNamedUnlessNul (r : Run α) (file : Option String) : Prop where
  named_iff : r.EndsNamed ↔ ∀ path ∈ file, '\x00' ∉ path.toList
  fails : (∃ path ∈ file, '\x00' ∈ path.toList) → r = .fail (.unresolvable .embeddedNul)

theorem endsNamedUnlessNul_of {file : Option String}
    (hnul : (∃ path ∈ file, '\x00' ∈ path.toList) → r = .fail (.unresolvable .embeddedNul))
    (hfree : (∀ path ∈ file, '\x00' ∉ path.toList) → r.EndsNamed) :
    r.EndsNamedUnlessNul file := by
  refine ⟨⟨fun hnamed path hpath hmem => ?_, hfree⟩, hnul⟩
  rw [hnul ⟨path, hpath, hmem⟩] at hnamed
  exact not_endsNamed_unresolvable _ hnamed

end Run

namespace Lexeme

theorem exists_account_of_read? {cs word : List Char} (h : Lexeme.account.read? cs = some word) :
    ∃ account, AccountName.ofText (.ofList word) = .ok account :=
  exists_account_of_isAccount (accepts_of_read? (by decide) h)

theorem exists_nominal_of_read? {cs word : List Char} (h : Lexeme.nominal.read? cs = some word) :
    ∃ nominal, Decimal.ofText (.ofList word) = .ok nominal := by
  have haccepts := accepts_of_read? (by decide) h
  obtain ⟨n, rfl⟩ := Nominal.exists_of_isNominal haccepts
  exact ⟨n.value, n.ofText_chars⟩

end Lexeme

namespace Ledger

theorem load_endsNamedUnlessNul (l : Ledger) (files : Files) (text : String)
    (source : Option String) : (l.load files text source).EndsNamedUnlessNul source := by
  refine Run.endsNamedUnlessNul_of (fun hnul => ?_) fun hfree => ?_
  · exact l.load_of_unresolvable (Files.nameOf_eq_error_iff.2 hnul) text
  · cases hname : files.nameOf source with
    | error error =>
      obtain ⟨path, hpath, hmem⟩ := Files.nameOf_eq_error_iff.1 hname
      exact absurd hmem (hfree path hpath)
    | ok name =>
      apply Run.endsNamed_of_failsWith
      rw [result_load]
      exact l.follow_failsWith (Files.isSafe_expandText hname text)

theorem loadPath_endsNamedUnlessNul (l : Ledger) (files : Files) (path : String) :
    (l.loadPath files path).EndsNamedUnlessNul (some path) := by
  refine Run.endsNamedUnlessNul_of (fun hnul => ?_) fun hfree => ?_
  · obtain ⟨_, ⟨⟩, hmem⟩ := hnul
    have hpath : files.resolve (.ofText path) = .error .embeddedNul :=
      Files.resolve_eq_error_iff.2 (Path.hasNul_ofText_iff.2 hmem)
    rw [loadPath, loadTarget_eq, hpath]
  · obtain ⟨target, htarget⟩ :=
      files.exists_resolve_of_not_hasNul (Path.hasNul_ofText_iff.not.2 (hfree path rfl))
    apply Run.endsNamed_of_failsWith
    rw [result_loadPath]
    exact l.follow_failsWith (Files.isSafe_expandTarget [] (Path.isRead_ofText path) htarget)

theorem kind_of_arithmetic (error : ArithmeticError CurrencyName) :
    (LoadError.statement (.balance (.arithmetic error))).kind? = some "PrecisionError" ∨
      (LoadError.statement (.balance (.arithmetic error))).kind? = some "ConversionError" := by
  cases error with
  | inexact operation => exact .inl rfl
  | noPrice source target => exact .inr rfl

/-- Loads have no other way to end: tokens have the parts that their meaning asks for, the words of
accounts and numbers are such, and arithmetic fails by one of two names. -/
theorem endsNamed_unless_nul (l : Ledger) (files : Files) :
    ((∀ text source, (l.load files text source).EndsNamedUnlessNul source) ∧
        ∀ path, (l.loadPath files path).EndsNamedUnlessNul (some path)) ∧
      (∀ (s : Source) (tokens : List Token), s.tokens = .ok tokens →
        ∀ t ∈ tokens, t.IsDirective) ∧
      (∀ cs word, Lexeme.account.read? cs = some word →
        ∃ account, AccountName.ofText (.ofList word) = .ok account) ∧
      (∀ cs word, Lexeme.nominal.read? cs = some word →
        ∃ nominal, Decimal.ofText (.ofList word) = .ok nominal) ∧
      ∀ error : ArithmeticError CurrencyName,
        (LoadError.statement (.balance (.arithmetic error))).kind? = some "PrecisionError" ∨
          (LoadError.statement (.balance (.arithmetic error))).kind? = some "ConversionError" :=
  ⟨⟨l.load_endsNamedUnlessNul files, l.loadPath_endsNamedUnlessNul files⟩,
    fun _ _ htokens _ ht => Source.isDirective_of_mem htokens ht,
    fun _ _ hread => Lexeme.exists_account_of_read? hread,
    fun _ _ hread => Lexeme.exists_nominal_of_read? hread, kind_of_arithmetic⟩

/-- The empty text, from a file with a NUL in its path. -/
theorem not_forall_endsNamed :
    ¬ ∀ (l : Ledger) (files : Files) (text : String) (source : Option String),
      (l.load files text source).EndsNamed := by
  intro h
  have hnamed := h (empty false) .empty "" (some "a\x00b")
  rw [(load_endsNamedUnlessNul ..).fails ⟨_, rfl, by decide⟩] at hnamed
  exact Run.not_endsNamed_unresolvable _ hnamed

def closeText : String := "unit USD\n2021-10-28 close Assets:Cash\n"

/-- Closing an account that was never opened fails under a name; the same text from a file with a
NUL in its path fails without one. -/
theorem endsNamed_unless_nul_close :
    (∃ failure, ((empty false).load .empty closeText (some "books/main")).result = .error failure ∧
        failure.error.isLedgerError = true) ∧
      (empty false).load .empty closeText (some "books/\x00/../main") =
        .fail (.unresolvable .embeddedNul) ∧
      (∃ tokens, (Source.ofText closeText none).tokens = .ok tokens ∧ tokens.length = 2 ∧
        ∀ t ∈ tokens, t.IsDirective) ∧
      (∃ account, AccountName.ofText (.ofList "Assets:Cash".toList) = .ok account) ∧
      ∃ nominal, Decimal.ofText (.ofList "-1.50".toList) = .ok nominal := by
  obtain ⟨⟨hload, -⟩, htokens, haccount, hnominal, -⟩ := endsNamed_unless_nul (empty false) .empty
  have hfails : (failureOf? ((empty false).load .empty closeText (some "books/main")).result).isSome
      = true := result_load_of_stages (fun result => (failureOf? result).isSome) 10
        (by decide +kernel)
  have hlength : ((Source.ofText closeText none).tokens.map List.length).toOption = some 2 := by
    decide +kernel
  refine ⟨?_, (hload closeText _).fails ⟨_, rfl, by decide⟩, ?_,
    haccount "Assets:Cash 1".toList _ (by decide +kernel),
    hnominal "-1.50 USD".toList _ (by decide +kernel)⟩
  · have hnamed := (hload closeText (some "books/main")).named_iff.2 (by simp)
    rcases hnamed with ⟨after, hafter⟩ | hfailure
    · rw [hafter] at hfails
      contradiction
    · exact hfailure
  · cases h : (Source.ofText closeText none).tokens with
    | error error =>
      rw [h] at hlength
      contradiction
    | ok tokens =>
      rw [h] at hlength
      exact ⟨tokens, rfl, by simpa [Except.map, Except.toOption] using hlength, htokens _ _ h⟩

end Ledger
end DoubleEntry
