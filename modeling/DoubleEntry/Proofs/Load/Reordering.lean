import DoubleEntry.Proofs.Ledger.Commuting
import DoubleEntry.Proofs.Load.Accumulation

/-! Loads that file the same entries in another order lead to the same ledger. -/
namespace DoubleEntry

/-! ## What a load asks of a ledger -/

/-- The action of a step; none for a stop, whatever it reports. -/
def Step.asked? (step : Step) : Option Action :=
  match step.action with
  | .stop _ => none
  | action => some action

/-- What the directives of a text ask for, if it can be taken apart; none for a directive without a
meaning. -/
def Source.meanings? (s : Source) : Option (List (Option Directive)) :=
  s.tokens.toOption.map fun tokens => tokens.map fun t => (Directive.ofToken t).toOption

namespace Lane

def ofAction? : Option Action → Option Lane
  | some (.apply statement) => ofStatement? statement
  | _ => some .rest

/-- An included file may change a registry. -/
def ofDirective? : Option Directive → Option Lane
  | some (.statement statement) => ofStatement? statement
  | some (.includeFile _) => none
  | _ => some .rest

theorem cases_of_ofAction? {asked : Option Action} {lane : Lane} (h : ofAction? asked = some lane) :
    (∃ statement filing, asked = some (.apply statement) ∧ statement.filing? = some filing ∧
        lane = .entries filing.1 filing.2) ∨
      (∀ statement, asked ≠ some (.apply statement)) ∧ lane = .rest := by
  unfold ofAction? at h
  split at h
  · rename_i statement
    obtain ⟨filing, hfiling, hlane⟩ := exists_filing_of_ofStatement? h
    exact .inl ⟨statement, filing, rfl, hfiling, hlane⟩
  · rename_i hother
    exact .inr ⟨hother, (Option.some.inj h).symm⟩

end Lane

namespace Ledger

/-- Does what is asked of a ledger, if there is one left; a stop leaves none. -/
def comply (state : Option Ledger) (asked : Option Action) : Option Ledger :=
  state.bind fun l => asked.bind fun action => (l.perform action).toOption

theorem foldl_comply_none (asked : List (Option Action)) : asked.foldl comply none = none := by
  induction asked with
  | nil => rfl
  | cons _ _ ih => exact ih

theorem toOption_follow (l : Ledger) (steps : List Step) :
    (l.follow steps).toOption = (steps.map Step.asked?).foldl comply (some l) := by
  induction steps generalizing l with
  | nil => rfl
  | cons step steps ih =>
    have hstep : comply (some l) step.asked? = (l.perform step.action).toOption := by
      unfold Step.asked?
      cases step.action <;> rfl
    rw [follow, List.map_cons, List.foldl_cons, hstep]
    cases l.perform step.action with
    | error error => exact (foldl_comply_none _).symm
    | ok after => exact ih after

theorem comply_apply (state : Option Ledger) (statement : Statement) :
    comply state (some (.apply statement)) =
      state.bind fun l => (l.process statement).toOption := by
  unfold comply
  congr 1
  funext l
  rw [Option.bind_some, perform]
  cases l.process statement <;> rfl

/-- What is not a statement leaves the registries as they are. -/
theorem comply_comm_of_rest (l : Ledger) {statement : Statement} {filing : Date × EntryKind}
    (h : statement.filing? = some filing) {asked : Option Action}
    (hasked : ∀ other, asked ≠ some (.apply other)) :
    comply (comply (some l) (some (.apply statement))) asked =
      comply (comply (some l) asked) (some (.apply statement)) := by
  rw [comply_apply, comply_apply, Option.bind_some]
  cases asked with
  | none => cases (l.process statement).toOption <;> rfl
  | some action =>
    cases action with
    | apply other => exact absurd rfl (hasked other)
    | setOption key value =>
      refine Eq.trans ?_ (l.toOption_process_setOption h key value).symm
      cases (l.process statement).toOption <;> rfl
    | enter target =>
      change comply _ _ = (l.process statement).toOption
      cases (l.process statement).toOption <;> rfl
    | stop error => cases (l.process statement).toOption <;> rfl

theorem stepsCommute_comply : StepsCommute Lane.ofAction? comply := by
  intro asked asked' lane lane' h h' hne state
  cases state with
  | none => rfl
  | some l =>
    rcases Lane.cases_of_ofAction? h with ⟨statement, filing, rfl, hfiling, rfl⟩ | ⟨hrest, rfl⟩
    · rcases Lane.cases_of_ofAction? h' with
        ⟨statement', filing', rfl, hfiling', rfl⟩ | ⟨hrest', rfl⟩
      · simp only [comply_apply]
        exact l.process_comm hfiling hfiling' (Lane.filing_ne hne)
      · exact l.comply_comm_of_rest hfiling hrest'
    · rcases Lane.cases_of_ofAction? h' with
        ⟨statement', filing', rfl, hfiling', rfl⟩ | ⟨_, rfl⟩
      · exact (l.comply_comm_of_rest hfiling' hrest).symm
      · contradiction

theorem toOption_follow_of_reordered (l : Ledger) {steps steps' : List Step}
    (h : Reordered Lane.ofAction? (steps.map Step.asked?) (steps'.map Step.asked?)) :
    (l.follow steps).toOption = (l.follow steps').toOption := by
  rw [toOption_follow, toOption_follow]
  exact h.foldl_eq stepsCommute_comply (some l)

end Ledger

/-! ## Files -/

namespace Files

/-- What a directive asks for, with the contents of the files that it includes. -/
def askedBy (files : Files) (stack : List String) (source : Option String) :
    Option Directive → List (Option Action)
  | none => [none]
  | some (.option key value) => [some (.setOption key value)]
  | some (.statement statement) => [some (.apply statement)]
  | some (.includeFile path) =>
    let target := files.includeTarget source path
    some (.enter target.text) :: (files.expandTarget stack target).map Step.asked?

/-- What the directives of a file ask for, if it can be read and taken apart. -/
def meaningsAt? (files : Files) (path : String) : Option (List (Option Directive)) :=
  (files.read path).toOption.bind fun text => (Source.ofText text (some path)).meanings?

/-- The same files seen from the same directory, but for the order of entries of different days or
kinds within a file. -/
structure Rearranged (files files' : Files) : Prop where
  directory : files.directory = files'.directory
  meanings : ∀ path,
    Option.Rel (Reordered Lane.ofDirective?) (files.meaningsAt? path) (files'.meaningsAt? path)

section

variable {files : Files} {stack : List String} {source : Option String}

theorem map_asked_stepsOf (t : Token) :
    (files.stepsOf stack source t).map Step.asked? =
      files.askedBy stack source (Directive.ofToken t).toOption := by
  unfold stepsOf
  cases Directive.ofToken t with
  | error error => rfl
  | ok d => cases d <;> rfl

theorem map_asked_expandTokens (tokens : List Token) :
    (files.expandTokens stack source tokens).map Step.asked? =
      (tokens.map fun t => (Directive.ofToken t).toOption).flatMap
        (files.askedBy stack source) := by
  induction tokens with
  | nil =>
    rw [expandTokens_nil]
    rfl
  | cons t ts ih =>
    rw [expandTokens_cons, List.map_append, ih, List.map_cons, List.flatMap_cons,
      ← map_asked_stepsOf, List.map_map]
    rfl

theorem map_asked_expand (files : Files) (stack : List String) (path : String) :
    (files.expand stack path).map Step.asked? =
      match if path ∈ stack then none else files.meaningsAt? path with
      | none => [none]
      | some ds => ds.flatMap (files.askedBy (stack ++ [path]) (some path)) := by
  have hmeanings : (if path ∈ stack then none else files.meaningsAt? path) =
      (files.tokensOf stack path).toOption.map
        fun tokens => tokens.map fun t => (Directive.ofToken t).toOption := by
    split
    · rename_i hpath
      rw [tokensOf_of_mem hpath]
      rfl
    · rename_i hpath
      rw [files.tokensOf_of_not_mem hpath, meaningsAt?]
      cases files.read path with
      | error reason => rfl
      | ok text =>
        simp only [Except.toOption, Option.bind_some, Source.meanings?]
        cases (Source.ofText text (some path)).tokens <;> rfl
  rw [hmeanings, expand_eq]
  cases files.tokensOf stack path with
  | error error => rfl
  | ok tokens => exact map_asked_expandTokens tokens

theorem map_asked_expandText (files : Files) (text : String) (source : Option String) :
    (files.expandText text source).map Step.asked? =
      match files.nameOf source with
      | .error _ => [none]
      | .ok name =>
        match (Source.ofText text name).meanings? with
        | none => [none]
        | some ds => ds.flatMap (files.askedBy name.toList name) := by
  unfold expandText
  cases files.nameOf source with
  | error error => rfl
  | ok name =>
    simp only [Source.meanings?]
    cases (Source.ofText text name).tokens with
    | error error => rfl
    | ok tokens => exact map_asked_expandTokens tokens

theorem lane_of_mem_askedBy {d : Option Directive} {lane : Lane}
    (h : Lane.ofDirective? d = some lane) :
    ∀ asked ∈ files.askedBy stack source d, Lane.ofAction? asked = some lane := by
  cases d with
  | none => exact List.forall_mem_singleton.2 h
  | some d =>
    cases d with
    | option key value => exact List.forall_mem_singleton.2 h
    | statement statement => exact List.forall_mem_singleton.2 h
    | includeFile path => contradiction

end

variable {files files' : Files}

namespace Rearranged

theorem resolve (h : files.Rearranged files') (target : Path) :
    files'.resolve target = files.resolve target := by
  rw [Files.resolve, Files.resolve, h.directory]

theorem nameOf (h : files.Rearranged files') (source : Option String) :
    files'.nameOf source = files.nameOf source := by
  cases source with
  | none => rfl
  | some file => rw [Files.nameOf, Files.nameOf, h.resolve]

theorem includeTarget (h : files.Rearranged files') (source : Option String) (path : String) :
    files'.includeTarget source path = files.includeTarget source path := by
  cases source with
  | none => rw [Files.includeTarget, Files.includeTarget, h.directory]
  | some file => rfl

theorem reordered_expandTarget (h : files.Rearranged files') {stack : List String}
    (hfiles : ∀ path, Reordered Lane.ofAction? ((files.expand stack path).map Step.asked?)
      ((files'.expand stack path).map Step.asked?)) (target : Path) :
    Reordered Lane.ofAction? ((files.expandTarget stack target).map Step.asked?)
      ((files'.expandTarget stack target).map Step.asked?) := by
  rw [expandTarget_eq, expandTarget_eq, h.resolve]
  cases files.resolve target with
  | error error => exact .refl _
  | ok path => exact hfiles path

theorem reordered_askedBy (h : files.Rearranged files') {stack : List String}
    (hfiles : ∀ path, Reordered Lane.ofAction? ((files.expand stack path).map Step.asked?)
      ((files'.expand stack path).map Step.asked?)) (source : Option String)
    (d : Option Directive) :
    Reordered Lane.ofAction? (files.askedBy stack source d) (files'.askedBy stack source d) := by
  cases d with
  | none => exact .refl _
  | some d =>
    cases d with
    | includeFile path =>
      simp only [askedBy, h.includeTarget]
      exact (h.reordered_expandTarget hfiles _).cons _
    | _ => exact .refl _

theorem reordered_expand (h : files.Rearranged files') (stack : List String) :
    ∀ path, Reordered Lane.ofAction? ((files.expand stack path).map Step.asked?)
      ((files'.expand stack path).map Step.asked?) := by
  induction stack using files.stack_induction with
  | h stack ih =>
    intro path
    rw [map_asked_expand, map_asked_expand]
    by_cases hpath : path ∈ stack
    · rw [if_pos hpath, if_pos hpath]
      exact .refl _
    · rw [if_neg hpath, if_neg hpath]
      have hmeanings := h.meanings path
      generalize hds : files.meaningsAt? path = meanings at hmeanings ⊢
      generalize files'.meaningsAt? path = meanings' at hmeanings ⊢
      cases hmeanings with
      | none => exact .refl _
      | some hreordered =>
        obtain ⟨text, hread, _⟩ := Option.bind_eq_some_iff.1 hds
        have hinner := ih path text hpath (toOption_eq_some_iff.1 hread)
        exact hreordered.flatMap (h.reordered_askedBy hinner _) lane_of_mem_askedBy

theorem reordered_expandText (h : files.Rearranged files') {text text' : String}
    {source : Option String}
    (hmeanings : ∀ name, files.nameOf source = .ok name →
      Option.Rel (Reordered Lane.ofDirective?) (Source.ofText text name).meanings?
        (Source.ofText text' name).meanings?) :
    Reordered Lane.ofAction? ((files.expandText text source).map Step.asked?)
      ((files'.expandText text' source).map Step.asked?) := by
  rw [map_asked_expandText, map_asked_expandText, h.nameOf]
  cases hname : files.nameOf source with
  | error error => exact .refl _
  | ok name =>
    have hrel := hmeanings name hname
    simp only
    generalize (Source.ofText text name).meanings? = meanings at hrel ⊢
    generalize (Source.ofText text' name).meanings? = meanings' at hrel ⊢
    cases hrel with
    | none => exact .refl _
    | some hreordered =>
      exact hreordered.flatMap (h.reordered_askedBy (h.reordered_expand _) _) lane_of_mem_askedBy

/-- One file may be replaced. -/
theorem insert (h : files.Rearranged files') {path text text' : String}
    (htext : Option.Rel (Reordered Lane.ofDirective?) (Source.ofText text (some path)).meanings?
      (Source.ofText text' (some path)).meanings?) :
    (files.insert path (.text text)).Rearranged (files'.insert path (.text text')) := by
  refine ⟨h.directory, fun other => ?_⟩
  by_cases hpath : path = other
  · subst hpath
    simpa [meaningsAt?, read, Files.insert, KeyedList.insert, FileContent.read, Except.toOption]
      using htext
  · simpa [meaningsAt?, read, Files.insert, KeyedList.insert, hpath] using h.meanings other

end Rearranged

theorem rearranged_refl (files : Files) : files.Rearranged files := by
  refine ⟨rfl, fun path => ?_⟩
  cases files.meaningsAt? path with
  | none => exact .none
  | some ds => exact .some (.refl ds)

end Files

/-! ## Main statement -/

namespace Ledger

theorem toOption_load_of_reordered (l : Ledger) {files files' : Files} {text text' : String}
    {source source' : Option String}
    (h : Reordered Lane.ofAction? ((files.expandText text source).map Step.asked?)
      ((files'.expandText text' source').map Step.asked?)) :
    (l.load files text source).result.toOption =
      (l.load files' text' source').result.toOption := by
  rw [result_load, result_load]
  exact l.toOption_follow_of_reordered h

theorem toOption_loadPath_of_reordered (l : Ledger) {files files' : Files} {path path' : String}
    (h : Reordered Lane.ofAction? ((files.expandPath path).map Step.asked?)
      ((files'.expandPath path').map Step.asked?)) :
    (l.loadPath files path).result.toOption = (l.loadPath files' path').result.toOption := by
  rw [result_loadPath, result_loadPath]
  exact l.toOption_follow_of_reordered h

/-- Statements that file entries of different days or kinds make the same ledger in either order,
and each of them succeeds or fails alike in both. So entries may come in any order, one by one, in
the files of a load or moved between them, as long as those of one day and kind keep theirs and none
passes a change of a registry. -/
theorem entries_commute (l : Ledger) :
    (∀ statement statement' filing filing', statement.filing? = some filing →
        statement'.filing? = some filing' → filing ≠ filing' →
        (l.attempt statement').verdict statement = l.verdict statement ∧
          (l.attempt statement).verdict statement' = l.verdict statement' ∧
          (l.attempt statement).attempt statement' = (l.attempt statement').attempt statement) ∧
      (∀ statements statements', Reordered Lane.ofStatement? statements statements' →
        l.attemptAll statements = l.attemptAll statements') ∧
      (∀ files files' : Files, files.Rearranged files' →
        (∀ text text' source,
          (∀ name, files.nameOf source = .ok name →
              Option.Rel (Reordered Lane.ofDirective?) (Source.ofText text name).meanings?
                (Source.ofText text' name).meanings?) →
            (l.load files text source).result.toOption =
              (l.load files' text' source).result.toOption) ∧
          ∀ path, (l.loadPath files path).result.toOption =
            (l.loadPath files' path).result.toOption) ∧
      ∀ files files' : Files,
        (∀ text text' source source',
          Reordered Lane.ofAction? ((files.expandText text source).map Step.asked?)
              ((files'.expandText text' source').map Step.asked?) →
            (l.load files text source).result.toOption =
              (l.load files' text' source').result.toOption) ∧
          ∀ path path',
            Reordered Lane.ofAction? ((files.expandPath path).map Step.asked?)
                ((files'.expandPath path').map Step.asked?) →
              (l.loadPath files path).result.toOption =
                (l.loadPath files' path').result.toOption := by
  refine ⟨?_, fun _ _ => l.attemptAll_of_reordered, ?_, ?_⟩
  · intro statement statement' filing filing' h h' hne
    exact ⟨(l.attempt_agreesWith h').verdict statement, (l.attempt_agreesWith h).verdict statement',
      l.attempt_comm h h' hne⟩
  · intro files files' hfiles
    exact ⟨fun _ _ _ h => l.toOption_load_of_reordered (hfiles.reordered_expandText h),
      fun _ => l.toOption_loadPath_of_reordered
        (hfiles.reordered_expandTarget (hfiles.reordered_expand []) _)⟩
  · intro files files'
    exact ⟨fun _ _ _ _ => l.toOption_load_of_reordered,
      fun _ _ => l.toOption_loadPath_of_reordered⟩

def quoteOn (day : Date) (tenths : Nat) : Statement :=
  .price day "EUR" ⟨⟨false, tenths, -1⟩, "USD", []⟩

def quotes : List Statement :=
  [.unit "USD", .unit "EUR", quoteOn noteDay 11, .custom noteDay ["fair"],
    quoteOn LedgerTables.rentDay 12]

/-- The later quote comes first, and the note behind both. -/
def laterFirst : List Statement :=
  [.unit "USD", .unit "EUR", quoteOn LedgerTables.rentDay 12, quoteOn noteDay 11,
    .custom noteDay ["fair"]]

def quotesText : String :=
  "unit USD\nunit EUR\n2020-04-08 price EUR 1.1 USD\n2020-04-08 custom \"fair\"\n" ++
    "2023-05-20 price EUR 1.2 USD\n"

def laterFirstText : String :=
  "unit USD\nunit EUR\n2023-05-20 price EUR 1.2 USD\n2020-04-08 price EUR 1.1 USD\n" ++
    "2020-04-08 custom \"fair\"\n"

def lostPad : Statement := .pad noteDay LedgerTables.bank LedgerTables.bank

theorem quotesText_rearranged (name : Option String)
    (h : name ∈ [none, some "/books/quotes"]) :
    Option.Rel (Reordered Lane.ofDirective?) (Source.ofText quotesText name).meanings?
      (Source.ofText laterFirstText name).meanings? := by
  have hquotes : (Source.ofText quotesText name).meanings? =
      some (quotes.map fun s => some (.statement s)) := by
    fin_cases h <;> decide +kernel
  have hlater : (Source.ofText laterFirstText name).meanings? =
      some (laterFirst.map fun s => some (.statement s)) := by
    fin_cases h <;> decide +kernel
  rw [hquotes, hlater]
  exact .some (by decide +kernel)

def quotesFiles (text : String) : Files := Files.empty.insert "/books/quotes" (.text text)

theorem entries_commute_quotes :
    let l := (empty false).attemptAll [.unit "USD", .unit "EUR"]
    ((l.attempt (quoteOn noteDay 11)).attempt lostPad =
        (l.attempt lostPad).attempt (quoteOn noteDay 11) ∧
      (l.attempt (quoteOn noteDay 11)).verdict lostPad = l.verdict lostPad) ∧
      (empty false).attemptAll quotes = (empty false).attemptAll laterFirst ∧
      (∃ after : Ledger, ((empty false).load .empty quotesText none).result = .ok after ∧
        ((empty false).load .empty laterFirstText none).result = .ok after) ∧
      ((empty false).loadPath (quotesFiles quotesText) "/books/quotes").result.toOption =
        ((empty false).loadPath (quotesFiles laterFirstText) "/books/quotes").result.toOption := by
  intro l
  obtain ⟨hpair, -⟩ := entries_commute l
  obtain ⟨-, hattempts, hfiles, hsteps⟩ := entries_commute (empty false)
  obtain ⟨-, hverdict, hattempt⟩ :=
    hpair (quoteOn noteDay 11) lostPad (noteDay, .price) (noteDay, .pad) rfl rfl (by decide)
  have htexts := quotesText_rearranged none (by decide)
  have hquotes : ∃ after, ((empty false).load .empty quotesText none).result = .ok after := by
    have hok : (quotes.foldlM process (empty false)).toOption.isSome = true := by decide +kernel
    obtain ⟨after, hafter⟩ := Option.isSome_iff_exists.1 hok
    exact ⟨after, load_of_statements .empty quotesText (by decide +kernel)
      (toOption_eq_some_iff.1 hafter)⟩
  obtain ⟨after, hload⟩ := hquotes
  have hlater := (hsteps .empty .empty).1 quotesText laterFirstText none none
    ((Files.rearranged_refl .empty).reordered_expandText fun _ hname =>
      Except.ok.inj hname ▸ htexts)
  rw [hload] at hlater
  have hrearranged : (quotesFiles quotesText).Rearranged (quotesFiles laterFirstText) :=
    (Files.rearranged_refl .empty).insert (quotesText_rearranged _ (by decide))
  exact ⟨⟨hattempt, hverdict⟩, hattempts quotes laterFirst (by decide +kernel),
    ⟨after, hload, toOption_eq_some_iff.1 hlater.symm⟩,
    (hfiles _ _ hrearranged).2 "/books/quotes"⟩

end Ledger
end DoubleEntry
