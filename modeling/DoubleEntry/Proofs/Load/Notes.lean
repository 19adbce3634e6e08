import DoubleEntry.Load.Site
import DoubleEntry.Proofs.Load.Accumulation
import DoubleEntry.Proofs.Load.Stages
import DoubleEntry.Proofs.Source.Line

/-! The notes on a failure retrace the includes that lead to it. One level is what the first failing
directive of a text makes of the failure; the induction over levels is on the files that are not yet
being loaded. -/
namespace DoubleEntry

namespace Ledger

variable {files : Files} {stack : List String} {source : Option String}

/-! ## One text -/

/-- The first directive that fails has its note put on what it fails with. -/
theorem result_loadTokens_eq_error_iff {tokens : List Token} {l : Ledger} {failure : Failure} :
    (l.loadTokens files stack source tokens).result = .error failure ↔
      ∃ before t after middle inner, tokens = before ++ t :: after ∧
        (l.loadTokens files stack source before).result = .ok middle ∧
        (middle.runToken files stack source t).result = .error inner ∧
        failure = inner.addNote (noteOf source t) := by
  constructor
  · intro h
    induction tokens generalizing l with
    | nil =>
      rw [loadTokens_nil] at h
      contradiction
    | cons t ts ih =>
      rw [loadTokens_cons, Run.result_andThen, Run.result_addNote] at h
      cases hrun : (l.runToken files stack source t).result with
      | error inner =>
        rw [hrun] at h
        cases h
        exact ⟨[], t, ts, l, inner, rfl, by rw [loadTokens_nil]; rfl, hrun, rfl⟩
      | ok first =>
        rw [hrun] at h
        obtain ⟨before, u, after, middle, inner, rfl, hbefore, hu⟩ := ih h
        exact ⟨t :: before, u, after, middle, inner, rfl,
          result_loadTokens_cons_eq_ok_iff.2 ⟨first, hrun, hbefore⟩, hu⟩
  · rintro ⟨before, t, after, middle, inner, rfl, hbefore, hrun, rfl⟩
    rw [result_loadTokens_append, hbefore]
    change (middle.loadTokens files stack source (t :: after)).result = _
    rw [loadTokens_cons, Run.result_andThen, Run.result_addNote, hrun]
    rfl

theorem result_runToken_of_refusal? {site : Site} {l : Ledger} {error : LoadError}
    (h : l.refusal? site.token = some error) :
    (l.runToken files stack site.text.name site.token).result = .error ⟨error, []⟩ := by
  unfold refusal? at h
  unfold runToken
  split at h
  · rename_i cause hmeaning
    cases h
    rw [hmeaning]
    rfl
  · rename_i statement hmeaning
    rw [hmeaning]
    simp only [result_run]
    split at h
    · rename_i cause hprocess
      cases h
      rw [hprocess]
      rfl
    · contradiction
  · contradiction

theorem result_runToken_of_target? {site : Site} {path : String}
    (h : site.target? files = some path) (l : Ledger) :
    (l.runToken files stack site.text.name site.token).result =
      (l.loadFile files stack path).result := by
  unfold Site.target? at h
  unfold runToken
  split at h
  · rename_i hmeaning
    rw [hmeaning]
    simp only [Run.result_after]
    rw [loadTarget_eq, toOption_eq_some_iff.1 h]
  · contradiction

/-- In a text that goes by a resolved path, a directive that fails is refused or includes a file
that fails. -/
theorem cases_of_runToken {site : Site} (hname : ∀ file ∈ site.text.name, files.IsResolved file)
    (ht : site.token.IsDirective) {l : Ledger} {failure : Failure}
    (h : (l.runToken files stack site.text.name site.token).result = .error failure) :
    (∃ error, l.refusal? site.token = some error ∧ failure = ⟨error, []⟩) ∨
      ∃ path, site.target? files = some path ∧
        (l.loadFile files stack path).result = .error failure := by
  unfold runToken at h
  unfold refusal? Site.target?
  cases hmeaning : Directive.ofToken site.token with
  | error error =>
    rw [hmeaning] at h
    exact .inl ⟨_, rfl, (Except.error.inj h).symm⟩
  | ok d =>
    rw [hmeaning] at h
    cases d with
    | option key value => contradiction
    | statement statement =>
      simp only [result_run] at h
      cases hprocess : l.process statement with
      | ok after =>
        rw [hprocess] at h
        contradiction
      | error error =>
        rw [hprocess] at h
        simp only [hprocess]
        exact .inl ⟨_, rfl, (Except.error.inj h).symm⟩
    | includeFile path =>
      obtain ⟨target, htarget, _⟩ := Files.exists_target_of_isDirective hname ht hmeaning
      simp only [Run.result_after, loadTarget_eq, htarget] at h
      exact .inr ⟨target, by simp only [htarget, Except.toOption], h⟩

theorem isLedgerError_of_refusal? {l : Ledger} {t : Token} (ht : t.IsDirective) {error : LoadError}
    (h : l.refusal? t = some error) : error.isLedgerError = true := by
  unfold refusal? at h
  rcases ht with ⟨d, hd, hne⟩ | ⟨text, position, herror⟩
  · rw [hd] at h
    cases d with
    | statement statement =>
      simp only at h
      split at h
      · rename_i cause hprocess
        cases h
        exact l.process_failsWith hne cause hprocess
      · contradiction
    | _ => contradiction
  · rw [herror] at h
    cases h
    rfl

/-! ## One file inside another -/

/-- What comes of a text that is loaded inside others. -/
def loadSource (l : Ledger) (files : Files) (stack : List String) (s : Source) :
    Except Failure Ledger :=
  match s.tokens with
  | .error error => .error ⟨.parse error, []⟩
  | .ok tokens => (l.loadTokens files stack s.name tokens).result

theorem result_load_eq_loadSource (l : Ledger) {files : Files} (text : String)
    {source name : Option String} (hname : files.nameOf source = .ok name) :
    (l.load files text source).result =
      l.loadSource files name.toList (.ofText text name) := by
  unfold load loadSource
  simp only [hname]
  cases (Source.ofText text name).tokens <;> rfl

theorem result_loadFile_of_read (l : Ledger) {path text : String} (hpath : path ∉ stack)
    (hread : files.read path = .ok text) :
    (l.loadFile files stack path).result =
      l.loadSource files (stack ++ [path]) (.ofText text (some path)) := by
  rw [result_loadFile_eq, Files.tokensOf_of_not_mem _ hpath, hread, loadSource]
  simp only
  cases (Source.ofText text (some path)).tokens <;> rfl

theorem result_loadFile_of_mem (l : Ledger) {path : String} (hpath : path ∈ stack) :
    (l.loadFile files stack path).result = .error ⟨.cycle path stack, []⟩ := by
  rw [result_loadFile_eq, Files.tokensOf_of_mem hpath]

theorem result_loadFile_of_unreadable (l : Ledger) {path reason : String} (hpath : path ∉ stack)
    (hread : files.read path = .error reason) :
    (l.loadFile files stack path).result = .error ⟨.unreadable path reason, []⟩ := by
  rw [result_loadFile_eq, Files.tokensOf_of_not_mem _ hpath, hread]

end Ledger

namespace Site

variable {files : Files} {stack : List String} {site : Site} {l middle : Ledger}

theorem isResolved_target {path : String} (h : site.target? files = some path) :
    files.IsResolved path := by
  unfold target? at h
  split at h
  · exact Files.isResolved_of_resolve (files.isRead_includeTarget _ _) (toOption_eq_some_iff.1 h)
  · contradiction

theorem IsReached.mem (h : site.IsReached files stack l middle) :
    ∃ tokens, site.text.tokens = .ok tokens ∧ site.token ∈ tokens := by
  obtain ⟨before, after, htokens, _⟩ := h
  exact ⟨_, htokens, by simp⟩

theorem IsReached.isDirective (h : site.IsReached files stack l middle) :
    site.token.IsDirective := by
  obtain ⟨tokens, htokens, hmem⟩ := h.mem
  exact Source.isDirective_of_mem htokens hmem

/-- A text fails with the first of its directives that fails. -/
theorem IsReached.loadSource (h : site.IsReached files stack l middle) {failure : Failure}
    (hrun : (middle.runToken files stack site.text.name site.token).result = .error failure) :
    l.loadSource files stack site.text = .error (failure.addNote site.note) := by
  obtain ⟨before, after, htokens, hbefore⟩ := h
  rw [Ledger.loadSource, htokens]
  exact Ledger.result_loadTokens_eq_error_iff.2
    ⟨before, site.token, after, middle, failure, rfl, hbefore, hrun, rfl⟩

end Site

namespace FailsAt

variable {files : Files} {stack : List String} {l : Ledger} {s place : Source} {sites : List Site}
  {error : LoadError}

theorem isLedgerError (h : FailsAt files stack l s sites place error) :
    error.isLedgerError = true := by
  induction h with
  | text _ => rfl
  | directive hreached hrefusal =>
    exact Ledger.isLedgerError_of_refusal? hreached.isDirective hrefusal
  | cycle _ _ _ => rfl
  | unreadable _ _ _ _ => rfl
  | inside _ _ _ _ _ ih => exact ih

theorem mem_tokens (h : FailsAt files stack l s sites place error) :
    ∀ site ∈ sites, ∃ tokens, site.text.tokens = .ok tokens ∧ site.token ∈ tokens := by
  induction h with
  | text _ => simp
  | directive hreached _ => exact List.forall_mem_singleton.2 hreached.mem
  | cycle hreached _ _ => exact List.forall_mem_singleton.2 hreached.mem
  | unreadable hreached _ _ _ => exact List.forall_mem_singleton.2 hreached.mem
  | inside hreached _ _ _ _ ih => exact List.forall_mem_cons.2 ⟨hreached.mem, ih⟩

/-- One note for each site, the innermost first. -/
theorem loadSource (h : FailsAt files stack l s sites place error) :
    l.loadSource files stack s = .error ⟨error, (sites.map Site.note).reverse⟩ := by
  have hnoted {failure : Failure} {site : Site} {notes : List String}
      (hfailure : failure = ⟨error, notes⟩) :
      failure.addNote site.note = ⟨error, notes ++ [site.note]⟩ := by
    rw [hfailure, Failure.addNote, if_pos h.isLedgerError]
  induction h with
  | text htokens =>
    rw [Ledger.loadSource, htokens]
    rfl
  | directive hreached hrefusal =>
    rw [hreached.loadSource (Ledger.result_runToken_of_refusal? hrefusal), hnoted rfl]
    rfl
  | cycle hreached htarget hpath =>
    rw [hreached.loadSource ((Ledger.result_runToken_of_target? htarget _).trans
      (Ledger.result_loadFile_of_mem _ hpath)), hnoted rfl]
    rfl
  | unreadable hreached htarget hpath hread =>
    rw [hreached.loadSource ((Ledger.result_runToken_of_target? htarget _).trans
      (Ledger.result_loadFile_of_unreadable _ hpath hread)), hnoted rfl]
    rfl
  | inside hreached htarget hpath hread _ ih =>
    have hinner := ih hnoted
    rw [← Ledger.result_loadFile_of_read _ hpath hread] at hinner
    rw [hreached.loadSource ((Ledger.result_runToken_of_target? htarget _).trans hinner),
      hnoted rfl, List.map_cons, List.reverse_cons]

end FailsAt

namespace Ledger

/-- Every failure happens somewhere. -/
theorem exists_failsAt (files : Files) (stack : List String) :
    ∀ (l : Ledger) (s : Source) (failure : Failure), (∀ file ∈ s.name, files.IsResolved file) →
      l.loadSource files stack s = .error failure →
      ∃ sites place, FailsAt files stack l s sites place failure.error := by
  induction stack using files.stack_induction with
  | h stack ih =>
    intro l s failure hname h
    cases htokens : s.tokens with
    | error error =>
      rw [loadSource, htokens] at h
      cases h
      exact ⟨[], s, .text htokens⟩
    | ok tokens =>
      rw [loadSource, htokens] at h
      obtain ⟨before, t, after, middle, inner, rfl, hbefore, hrun, rfl⟩ :=
        result_loadTokens_eq_error_iff.1 h
      let site : Site := ⟨s, t⟩
      have hreached : site.IsReached files stack l middle := ⟨before, after, htokens, hbefore⟩
      have herror : (inner.addNote (noteOf s.name t)).error = inner.error := by
        unfold Failure.addNote
        split <;> rfl
      rw [herror]
      -- refused here, or failed in the file it includes: then all but one note is from further down
      rcases cases_of_runToken hname hreached.isDirective hrun with
        ⟨error, hrefusal, rfl⟩ | ⟨path, htarget, hfile⟩
      · exact ⟨[site], s, .directive hreached hrefusal⟩
      by_cases hpath : path ∈ stack
      · rw [result_loadFile_of_mem _ hpath] at hfile
        cases hfile
        exact ⟨[site], s, .cycle hreached htarget hpath⟩
      cases hread : files.read path with
      | error reason =>
        rw [result_loadFile_of_unreadable _ hpath hread] at hfile
        cases hfile
        exact ⟨[site], s, .unreadable hreached htarget hpath hread⟩
      | ok text =>
        rw [result_loadFile_of_read _ hpath hread] at hfile
        have hresolved : ∀ file ∈ (Source.ofText text (some path)).name, files.IsResolved file :=
          (Site.isResolved_target htarget).forall_mem_some
        obtain ⟨sites, place, hinside⟩ := ih path text hpath hread middle _ inner hresolved hfile
        exact ⟨site :: sites, place, .inside hreached htarget hpath hread hinside⟩

theorem loadSource_eq_error_iff {files : Files} {stack : List String} {l : Ledger} {s : Source}
    (hname : ∀ file ∈ s.name, files.IsResolved file) {error : LoadError} {notes : List String} :
    l.loadSource files stack s = .error ⟨error, notes⟩ ↔
      ∃ sites place, FailsAt files stack l s sites place error ∧
        notes = (sites.map Site.note).reverse := by
  constructor
  · intro h
    obtain ⟨sites, place, hfails⟩ := exists_failsAt files stack l s _ hname h
    refine ⟨sites, place, hfails, ?_⟩
    rw [hfails.loadSource] at h
    cases h
    rfl
  · rintro ⟨sites, place, hfails, rfl⟩
    exact hfails.loadSource

/-! ## Notes -/

theorem result_loadPath_eq_error_iff {files : Files} {l : Ledger} {path : String}
    {failure : Failure} :
    (l.loadPath files path).result = .error failure ↔
      (∃ fault, files.resolve (.ofText path) = .error fault ∧
        failure = ⟨.unresolvable fault, []⟩) ∨
      ∃ target, files.resolve (.ofText path) = .ok target ∧
        ((∃ reason, files.read target = .error reason ∧
            failure = ⟨.unreadable target reason, []⟩) ∨
          ∃ text, files.read target = .ok text ∧
            l.loadSource files [target] (.ofText text (some target)) = .error failure) := by
  rw [loadPath, loadTarget_eq]
  cases files.resolve (.ofText path) with
  | error fault =>
    constructor
    · rintro ⟨⟩
      exact .inl ⟨fault, rfl, rfl⟩
    · rintro (⟨_, ⟨⟩, rfl⟩ | ⟨_, ⟨⟩, _⟩)
      rfl
  | ok target =>
    have houtside : target ∉ ([] : List String) := List.not_mem_nil
    cases hread : files.read target with
    | error reason => simp [result_loadFile_of_unreadable l houtside hread, hread, eq_comm]
    | ok text => simp [result_loadFile_of_read l houtside hread, hread]

end Ledger

theorem Text.splitAt_fst (separator : Char) (cs : List Char) :
    (splitAt separator cs).1 = cs.takeWhile (· ≠ separator) := by
  induction cs with
  | nil => rfl
  | cons c cs ih =>
    rw [splitAt] at ih ⊢
    rw [splitWhere, List.takeWhile_cons]
    by_cases h : c = separator <;> simp [h, ih]

/-- A note gives the line that the directive starts, and shows as much of it as the directive
takes. -/
theorem Site.exists_note_eq {site : Site} {tokens : List Token}
    (htokens : site.text.tokens = .ok tokens) (hmem : site.token ∈ tokens) :
    ∃ line ∈ site.text.lines, site.token.Starts line ∧
      site.note = "in " ++ site.text.name.getD "<string>" ++ ", line " ++ toString line.number ++
        ": " ++ .ofList (site.token.text.toList.takeWhile (· ≠ '\n')) := by
  obtain ⟨line, hline, hstarts⟩ := Source.exists_starts_of_mem htokens hmem
  refine ⟨line, hline, hstarts, ?_⟩
  rw [note, noteOf, hstarts.1, Text.splitAt_fst]

namespace Ledger

/-- The notes on a failure are those on the directives that lead to it, the innermost first: the one
that cannot be applied or whose file cannot be had, and around it the includes of the files that it
is in. A text that cannot be taken apart adds no note of its own. Each note says where its directive
starts a line of its text, and shows it up to the end of that line. -/
theorem notes_retrace_includes (l : Ledger) (files : Files) :
    (∀ text source error notes,
      (l.load files text source).result = .error ⟨error, notes⟩ ↔
        (∃ fault, files.nameOf source = .error fault ∧ error = .unresolvable fault ∧ notes = []) ∨
        ∃ name, files.nameOf source = .ok name ∧ ∃ sites place,
          FailsAt files name.toList l (.ofText text name) sites place error ∧
          notes = (sites.map Site.note).reverse) ∧
      (∀ path error notes,
        (l.loadPath files path).result = .error ⟨error, notes⟩ ↔
          (∃ fault, files.resolve (.ofText path) = .error fault ∧ error = .unresolvable fault ∧
            notes = []) ∨
          ∃ target, files.resolve (.ofText path) = .ok target ∧
            ((∃ reason, files.read target = .error reason ∧
                error = .unreadable target reason ∧ notes = []) ∨
              ∃ text, files.read target = .ok text ∧ ∃ sites place,
                FailsAt files [target] l (.ofText text (some target)) sites place error ∧
                notes = (sites.map Site.note).reverse)) ∧
      ∀ stack s sites place error, FailsAt files stack l s sites place error → ∀ site ∈ sites,
        ∃ line ∈ site.text.lines, site.token.Starts line ∧
          site.note = "in " ++ site.text.name.getD "<string>" ++ ", line " ++
            toString line.number ++ ": " ++
            .ofList (site.token.text.toList.takeWhile (· ≠ '\n')) := by
  refine ⟨fun text source error notes => ?_, fun path error notes => ?_,
    fun stack s sites place error hfails site hsite => ?_⟩
  · cases hname : files.nameOf source with
    | error fault =>
      rw [l.load_of_unresolvable hname]
      constructor
      · rintro ⟨⟩
        exact .inl ⟨fault, rfl, rfl, rfl⟩
      · rintro (⟨_, ⟨⟩, rfl, rfl⟩ | ⟨_, ⟨⟩, _⟩)
        rfl
    | ok name =>
      rw [result_load_eq_loadSource l text hname,
        loadSource_eq_error_iff (Files.isResolved_of_nameOf hname)]
      simp
  · rw [result_loadPath_eq_error_iff]
    simp only [Failure.mk.injEq]
    refine or_congr_right (exists_congr fun target => and_congr_right fun htarget => ?_)
    have hresolved : ∀ file ∈ some target, files.IsResolved file :=
      (Files.isResolved_of_resolve (Path.isRead_ofText path) htarget).forall_mem_some
    have hiff (text : String) :
        l.loadSource files [target] (.ofText text (some target)) = .error ⟨error, notes⟩ ↔
          ∃ sites place, FailsAt files [target] l (.ofText text (some target)) sites place error ∧
            notes = (sites.map Site.note).reverse := loadSource_eq_error_iff hresolved
    simp only [hiff]
  · obtain ⟨tokens, htokens, hmem⟩ := hfails.mem_tokens site hsite
    exact Site.exists_note_eq htokens hmem

def nestedFiles : Files :=
  (Files.empty.insert "/books/bank" (.text "unit EUR\ninclude \"2021/../fees\"\n")).insert
    "/books/fees" (.text "; yearly\n2021-10-28 ! \"Fee\"\n    Assets:Bank  1 EUR\n")

def nestedText : String := "\ninclude \"bank\" ; first\n"

/-- The transaction takes two lines and is two files down. -/
theorem notes_retrace_nested :
    ∃ error sites place, ((empty false).load nestedFiles nestedText (some "books//main")).result =
        .error ⟨error, ["in /books/fees, line 2: 2021-10-28 ! \"Fee\"",
          "in /books/bank, line 2: include \"2021/../fees\"",
          "in /books/main, line 2: include \"bank\""]⟩ ∧
      FailsAt nestedFiles ["/books/main"] (empty false) (.ofText nestedText (some "/books/main"))
        sites place error ∧
      ∀ site ∈ sites, ∃ line ∈ site.text.lines, site.token.Starts line := by
  have hnotes :
      (failureOf? ((empty false).load nestedFiles nestedText (some "books//main")).result).map
        Failure.notes = some ["in /books/fees, line 2: 2021-10-28 ! \"Fee\"",
        "in /books/bank, line 2: include \"2021/../fees\"",
        "in /books/main, line 2: include \"bank\""] :=
    result_load_of_stages (fun result => (failureOf? result).map Failure.notes) 20
      (by decide +kernel)
  obtain ⟨⟨error, notes⟩, hfailure, rfl⟩ := Option.map_eq_some_iff.1 hnotes
  have hload := failureOf?_eq_some_iff.1 hfailure
  obtain ⟨htext, -, hlines⟩ := notes_retrace_includes (empty false) nestedFiles
  obtain ⟨_, ⟨⟩, _⟩ | ⟨_, ⟨⟩, sites, place, hfails, -⟩ := (htext _ _ _ _).1 hload
  refine ⟨error, sites, place, hload, hfails, fun site hsite => ?_⟩
  obtain ⟨line, hline, hstarts, -⟩ := hlines _ _ _ _ _ hfails site hsite
  exact ⟨line, hline, hstarts⟩

end Ledger
end DoubleEntry
