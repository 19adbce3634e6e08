import DoubleEntry.Load.Expansion
import DoubleEntry.Proofs.Ledger.Errors
import DoubleEntry.Proofs.Path
import DoubleEntry.Proofs.Statement.Readable

/-! Loading is following the expansion: it comes to the same end, with the same announcements on the
way. Both go down the same includes, so the induction is on the files that are not yet being read.
The texts on the way down go by resolved paths, and so each of their includes leads to a file. -/
namespace DoubleEntry

namespace Files

/-- What holds of a stack once it holds of every stack with one more readable file holds of all. -/
theorem stack_induction (files : Files) {motive : List String → Prop}
    (h : ∀ stack, (∀ path text, path ∉ stack → files.read path = .ok text →
      motive (stack ++ [path])) → motive stack) (stack : List String) : motive stack := by
  generalize hcount : files.countOutside stack = count
  induction count using Nat.strongRecOn generalizing stack with
  | ind count ih =>
    apply h
    intro path text hpath hread
    have hlt := countOutside_append_lt hread hpath
    exact ih _ (hcount ▸ hlt) _ rfl

/-! ## One file at a time -/

/-- The tokens of a file that is not being read yet, or why there are none. -/
def tokensOf (files : Files) (stack : List String) (path : String) :
    Except LoadError (List Token) :=
  if path ∈ stack then .error (.cycle path stack)
  else
    match files.read path with
    | .error reason => .error (.unreadable path reason)
    | .ok text => (Source.ofText text (some path)).tokens.mapError .parse

theorem tokensOf_of_mem {files : Files} {stack : List String} {path : String} (h : path ∈ stack) :
    files.tokensOf stack path = .error (.cycle path stack) := if_pos h

theorem tokensOf_of_not_mem (files : Files) {stack : List String} {path : String}
    (h : path ∉ stack) :
    files.tokensOf stack path =
      match files.read path with
      | .error reason => .error (.unreadable path reason)
      | .ok text => (Source.ofText text (some path)).tokens.mapError .parse := if_neg h

theorem tokensOf_eq_ok {files : Files} {stack : List String} {path : String} {tokens : List Token}
    (h : files.tokensOf stack path = .ok tokens) :
    path ∉ stack ∧ ∃ text, files.read path = .ok text ∧
      (Source.ofText text (some path)).tokens = .ok tokens := by
  unfold tokensOf at h
  split at h
  · contradiction
  · rename_i hpath
    split at h
    · contradiction
    · rename_i text hread
      exact ⟨hpath, text, hread, mapError_eq_ok_iff.1 h⟩

theorem tokensOf_eq_error {files : Files} {stack : List String} {path : String}
    {error : LoadError} (h : files.tokensOf stack path = .error error) :
    error.isLedgerError = true := by
  unfold tokensOf at h
  split at h
  · cases h
    rfl
  split at h
  · cases h
    rfl
  · rename_i text _
    cases htokens : (Source.ofText text (some path)).tokens with
    | error e =>
      rw [htokens] at h
      cases h
      rfl
    | ok tokens =>
      rw [htokens] at h
      contradiction

/-- The files that are being read where an error stops a file: with the file itself once it is being
taken apart. -/
def stackAt (stack : List String) (path : String) : LoadError → List String
  | .parse _ => stack ++ [path]
  | _ => stack

/-- Looking into a file comes to what its tokens come to. -/
theorem match_tokensOf {β : Type} (files : Files) {stack : List String} {path : String}
    (hpath : path ∉ stack) (stop : LoadError → β) (go : List Token → β) :
    (match _content : files.read path with
      | .error reason => stop (.unreadable path reason)
      | .ok text =>
        match (Source.ofText text (some path)).tokens with
        | .error error => stop (.parse error)
        | .ok tokens => go tokens) =
      match files.tokensOf stack path with
      | .error error => stop error
      | .ok tokens => go tokens := by
  rw [files.tokensOf_of_not_mem hpath]
  split <;> rename_i hread <;> simp only [hread]
  rename_i text
  cases (Source.ofText text (some path)).tokens <;> simp only [Except.mapError]

/-- A file without tokens is a stop and nothing else. -/
theorem expand_eq (files : Files) (stack : List String) (path : String) :
    files.expand stack path =
      match files.tokensOf stack path with
      | .error error => [.ofAction (.stop error) (stackAt stack path error)]
      | .ok tokens => files.expandTokens (stack ++ [path]) (some path) tokens := by
  rw [expand]
  by_cases hpath : path ∈ stack
  · rw [dif_pos hpath, tokensOf_of_mem hpath]
    rfl
  · rw [dif_neg hpath]
    exact files.match_tokensOf hpath
      (fun error => [Step.ofAction (.stop error) (stackAt stack path error)]) _

theorem expandTarget_eq (files : Files) (stack : List String) (target : Path) :
    files.expandTarget stack target =
      match files.resolve target with
      | .error error => [.ofAction (.stop (.unresolvable error)) stack]
      | .ok path => files.expand stack path := by
  unfold expandTarget
  rfl

/-! ## One token at a time -/

/-- The steps of one directive, without the note on it. -/
def stepsOf (files : Files) (stack : List String) (source : Option String) (t : Token) :
    List Step :=
  match Directive.ofToken t with
  | .error error => [.ofAction (.stop (.meaning error)) stack]
  | .ok (.option key value) => [.ofAction (.setOption key value) stack]
  | .ok (.statement statement) => [.ofAction (.apply statement) stack]
  | .ok (.includeFile path) =>
    let target := files.includeTarget source path
    .ofAction (.enter target.text) stack :: files.expandTarget stack target

theorem expandTokens_nil (files : Files) (stack : List String) (source : Option String) :
    files.expandTokens stack source [] = [] := by
  rw [expandTokens]

theorem expandTokens_cons (files : Files) (stack : List String) (source : Option String)
    (t : Token) (ts : List Token) :
    files.expandTokens stack source (t :: ts) =
      (files.stepsOf stack source t).map (·.within (noteOf source t)) ++
        files.expandTokens stack source ts := by
  rw [expandTokens]
  rfl

end Files

namespace Ledger

/-- What one directive does, without the note on it. -/
def runToken (l : Ledger) (files : Files) (stack : List String) (source : Option String)
    (t : Token) : Run Ledger :=
  match Directive.ofToken t with
  | .error error => .fail (.meaning error)
  | .ok (.option key value) => l.runOption key value
  | .ok (.statement statement) => l.run statement
  | .ok (.includeFile path) =>
    let target := files.includeTarget source path
    .after [.includeStarted target.text] (l.loadTarget files stack target)

theorem loadTokens_nil (l : Ledger) (files : Files) (stack : List String)
    (source : Option String) : l.loadTokens files stack source [] = .done l := by
  rw [loadTokens]

theorem loadTokens_cons (l : Ledger) (files : Files) (stack : List String)
    (source : Option String) (t : Token) (ts : List Token) :
    l.loadTokens files stack source (t :: ts) =
      ((l.runToken files stack source t).addNote (noteOf source t)).andThen
        fun after => after.loadTokens files stack source ts := by
  rw [loadTokens]
  rfl

end Ledger

/-! ## What holds of every action -/

/-- The action that a directive starts with. -/
def Action.ofDirective (files : Files) (source : Option String) :
    Except MeaningError Directive → Action
  | .error error => .stop (.meaning error)
  | .ok (.option key value) => .setOption key value
  | .ok (.statement statement) => .apply statement
  | .ok (.includeFile path) => .enter (files.includeTarget source path).text

namespace Files

section

variable {P : Action → Prop} {files : Files} {source : Option String}

/-- In a text that goes by a resolved path, what is included has one too. -/
theorem exists_target_of_isDirective (hsource : ∀ file ∈ source, files.IsResolved file) {t : Token}
    (ht : t.IsDirective) {path : String} (hpath : Directive.ofToken t = .ok (.includeFile path)) :
    ∃ target, files.resolve (files.includeTarget source path) = .ok target ∧
      files.IsResolved target := by
  obtain ⟨target, htarget⟩ := exists_resolve_includeTarget hsource (ht.isProper hpath)
  exact ⟨target, htarget, isResolved_of_resolve (files.isRead_includeTarget source path) htarget⟩

theorem forall_mem_stepsOf {stack : List String} (hsource : ∀ file ∈ source, files.IsResolved file)
    {t : Token} (ht : t.IsDirective) (hfirst : P (.ofDirective files source (Directive.ofToken t)))
    (h : ∀ path, files.IsResolved path → ∀ step ∈ files.expand stack path, P step.action) :
    ∀ step ∈ files.stepsOf stack source t, P step.action := by
  unfold stepsOf
  cases hd : Directive.ofToken t with
  | error error =>
    rw [hd] at hfirst
    exact List.forall_mem_singleton.2 hfirst
  | ok d =>
    rw [hd] at hfirst
    cases d with
    | option key value => exact List.forall_mem_singleton.2 hfirst
    | statement statement => exact List.forall_mem_singleton.2 hfirst
    | includeFile path =>
      obtain ⟨target, htarget, hresolved⟩ := exists_target_of_isDirective hsource ht hd
      refine List.forall_mem_cons.2 ⟨hfirst, ?_⟩
      rw [expandTarget_eq, htarget]
      exact h target hresolved

theorem forall_mem_expandTokens {stack : List String}
    (hsource : ∀ file ∈ source, files.IsResolved file) {tokens : List Token}
    (htokens : ∀ t ∈ tokens, t.IsDirective)
    (hfirst : ∀ t ∈ tokens, P (.ofDirective files source (Directive.ofToken t)))
    (h : ∀ path, files.IsResolved path → ∀ step ∈ files.expand stack path, P step.action) :
    ∀ step ∈ files.expandTokens stack source tokens, P step.action := by
  induction tokens with
  | nil => simp [expandTokens_nil]
  | cons t ts ih =>
    rw [expandTokens_cons]
    intro step hstep
    rcases List.mem_append.1 hstep with hstep | hstep
    · obtain ⟨inner, hinner, rfl⟩ := List.mem_map.1 hstep
      exact forall_mem_stepsOf hsource (htokens t (by simp)) (hfirst t (by simp)) h inner hinner
    · exact ih (fun t ht => htokens t (by simp [ht])) (fun t ht => hfirst t (by simp [ht])) step
        hstep

variable (hstop : ∀ error : LoadError, error.isLedgerError = true → P (.stop error))
  (hdirective : ∀ (s : Source) (tokens : List Token), s.tokens = .ok tokens → ∀ t ∈ tokens,
    ∀ source, P (.ofDirective files source (Directive.ofToken t)))

include hstop hdirective

/-- What holds of the stops of a load and of the directives of every text holds all over an
expansion. -/
theorem forall_mem_expand (stack : List String) :
    ∀ path, files.IsResolved path → ∀ step ∈ files.expand stack path, P step.action := by
  induction stack using files.stack_induction with
  | h stack ih =>
    intro path hresolved
    cases h : files.tokensOf stack path with
    | error error =>
      rw [expand_eq, h]
      exact List.forall_mem_singleton.2 (hstop error (tokensOf_eq_error h))
    | ok tokens =>
      obtain ⟨hpath, text, hread, htokens⟩ := tokensOf_eq_ok h
      rw [expand_eq, h]
      exact forall_mem_expandTokens hresolved.forall_mem_some
        (fun _ => Source.isDirective_of_mem htokens) (fun t ht => hdirective _ _ htokens t ht _)
        (ih path text hpath hread)

theorem forall_mem_expandText
    (hroot : ∀ error, files.nameOf source = .error error → P (.stop (.unresolvable error)))
    (text : String) : ∀ step ∈ files.expandText text source, P step.action := by
  unfold expandText
  cases hname : files.nameOf source with
  | error error => exact List.forall_mem_singleton.2 (hroot error hname)
  | ok name =>
    cases h : (Source.ofText text name).tokens with
    | error error =>
      simp only [h]
      exact List.forall_mem_singleton.2 (hstop _ rfl)
    | ok tokens =>
      simp only [h]
      exact forall_mem_expandTokens (isResolved_of_nameOf hname)
        (fun _ => Source.isDirective_of_mem h) (fun t ht => hdirective _ _ h t ht _)
        (forall_mem_expand hstop hdirective _)

theorem forall_mem_expandTarget {target : Path} (htarget : target.IsRead)
    (hroot : ∀ error, files.resolve target = .error error → P (.stop (.unresolvable error)))
    (stack : List String) : ∀ step ∈ files.expandTarget stack target, P step.action := by
  rw [expandTarget_eq]
  cases hpath : files.resolve target with
  | error error => exact List.forall_mem_singleton.2 (hroot error hpath)
  | ok path =>
    exact forall_mem_expand hstop hdirective stack path (isResolved_of_resolve htarget hpath)

end

end Files

/-! ## Steps that fail with errors of a ledger -/

/-- Stops with an error of a ledger, if at all, and does not declare the empty code. -/
def Action.IsSafe : Action → Prop
  | .stop error => error.isLedgerError = true
  | .apply statement => statement ≠ .unit ""
  | _ => True

def Step.IsSafe (step : Step) : Prop := step.action.IsSafe

theorem Token.IsDirective.isSafe {t : Token} (h : t.IsDirective) (files : Files)
    (source : Option String) : (Action.ofDirective files source (Directive.ofToken t)).IsSafe := by
  rcases h with ⟨d, hd, hproper⟩ | ⟨text, position, herror⟩
  · rw [hd]
    cases d with
    | statement statement => exact hproper
    | _ => exact trivial
  · rw [herror]
    exact rfl

namespace Files

variable {files : Files} {source : Option String}

theorem isSafe_expand (stack : List String) :
    ∀ path, files.IsResolved path → ∀ step ∈ files.expand stack path, step.IsSafe :=
  forall_mem_expand (fun _ h => h)
    (fun _ _ htokens _ ht => (Source.isDirective_of_mem htokens ht).isSafe files) stack

theorem isSafe_stepsOf (stack : List String) (hsource : ∀ file ∈ source, files.IsResolved file)
    {t : Token} (ht : t.IsDirective) : ∀ step ∈ files.stepsOf stack source t, step.IsSafe :=
  forall_mem_stepsOf hsource ht (ht.isSafe files source) (isSafe_expand stack)

theorem isSafe_expandText {name : Option String} (hname : files.nameOf source = .ok name)
    (text : String) : ∀ step ∈ files.expandText text source, step.IsSafe :=
  forall_mem_expandText (fun _ h => h)
    (fun _ _ htokens _ ht => (Source.isDirective_of_mem htokens ht).isSafe files)
    (fun _ herror => by simp [hname] at herror) text

theorem isSafe_expandTarget (stack : List String) {target : Path} (htarget : target.IsRead)
    {path : String} (hpath : files.resolve target = .ok path) :
    ∀ step ∈ files.expandTarget stack target, step.IsSafe :=
  forall_mem_expandTarget (fun _ h => h)
    (fun _ _ htokens _ ht => (Source.isDirective_of_mem htokens ht).isSafe files) htarget
    (fun _ herror => by simp [hpath] at herror) stack

end Files

namespace Ledger

theorem perform_failsWith (l : Ledger) {action : Action} (h : action.IsSafe) :
    FailsWith (l.perform action) fun error => error.isLedgerError = true := by
  cases action with
  | setOption key value => exact failsWith_pure _
  | enter target => exact failsWith_pure _
  | apply statement => exact failsWith_mapError fun error => l.process_failsWith h error
  | stop error =>
    intro other heq
    cases heq
    exact h

theorem follow_failsWith (l : Ledger) {steps : List Step} (h : ∀ step ∈ steps, step.IsSafe) :
    FailsWith (l.follow steps) fun failure => failure.error.isLedgerError = true := by
  induction steps generalizing l with
  | nil => exact failsWith_pure _
  | cons step steps ih =>
    intro failure hfailure
    rw [follow] at hfailure
    cases hperform : l.perform step.action with
    | error error =>
      rw [hperform] at hfailure
      cases hfailure
      exact l.perform_failsWith (h step (by simp)) error hperform
    | ok after =>
      rw [hperform] at hfailure
      exact ih after (fun step hstep => h step (by simp [hstep])) failure hfailure

/-! ## Following -/

theorem follow_append (l : Ledger) (before after : List Step) :
    l.follow (before ++ after) = (l.follow before).bind fun middle => middle.follow after := by
  induction before generalizing l with
  | nil => rfl
  | cons step steps ih =>
    rw [List.cons_append, follow, follow]
    cases l.perform step.action with
    | error error => rfl
    | ok middle => exact ih middle

/-- A note on every step is a note on the failure. -/
theorem follow_map_within (l : Ledger) {steps : List Step} (note : String)
    (h : ∀ step ∈ steps, step.IsSafe) :
    l.follow (steps.map (·.within note)) = (l.follow steps).mapError (·.addNote note) := by
  induction steps generalizing l with
  | nil => rfl
  | cons step steps ih =>
    rw [List.map_cons, follow, follow]
    cases hperform : l.perform step.action with
    | error error =>
      have hnamed := l.perform_failsWith (h step (by simp)) error hperform
      simp only [Step.within, hperform, Except.mapError, Failure.addNote, hnamed, if_true]
    | ok after =>
      simp only [Step.within, hperform]
      exact ih after fun step hstep => h step (by simp [hstep])

theorem follow_singleton (l : Ledger) (action : Action) (stack : List String) :
    l.follow [.ofAction action stack] = (l.perform action).mapError (⟨·, []⟩) := by
  rw [follow, Step.ofAction]
  cases l.perform action <;> rfl

/-! ## Announcements -/

theorem announced_append (l : Ledger) (before after : List Step) :
    l.announced (before ++ after) = l.announced before ++
      match l.follow before with
      | .error _ => []
      | .ok middle => middle.announced after := by
  induction before generalizing l with
  | nil => rfl
  | cons step steps ih =>
    rw [List.cons_append, announced, announced, follow]
    cases l.perform step.action with
    | error error => rfl
    | ok middle => simp only [ih, List.append_assoc]

theorem announced_map_within (l : Ledger) (steps : List Step) (note : String) :
    l.announced (steps.map (·.within note)) = l.announced steps := by
  induction steps generalizing l with
  | nil => rfl
  | cons step steps ih =>
    rw [List.map_cons, announced, announced]
    cases hperform : l.perform step.action with
    | error error => simp only [Step.within, hperform]
    | ok after =>
      simp only [Step.within, hperform]
      exact congrArg _ (ih after)

theorem index?_of_declare {table after : CurrencyTable} {code : String} {index : Int}
    (h : table.declare code = .ok (after, index)) : after.codes.index? code = some index := by
  unfold CurrencyTable.declare at h
  split at h
  · contradiction
  · cases h
    exact NameTable.index?_of_name? (table.codes.name?_intern code)

theorem eventsOf_eq_announcement {l after : Ledger} {statement : Statement}
    (h : l.process statement = .ok after) :
    after.eventsOf statement = ((Action.apply statement).announcement after).toList := by
  cases statement with
  | unit code =>
    obtain ⟨⟨currencies, index⟩, hdeclare, hafter⟩ := bind_eq_ok_iff.1 h
    cases hafter
    have hindex := index?_of_declare (mapError_eq_ok_iff.1 hdeclare)
    simp only [eventsOf, Action.announcement, hindex]
    rfl
  | _ => rfl

/-! ## Loading -/

theorem result_run (l : Ledger) (statement : Statement) :
    (l.run statement).result = ((l.process statement).mapError .statement).mapError (⟨·, []⟩) := by
  unfold run
  cases l.process statement <;> rfl

theorem events_run (l : Ledger) (statement : Statement) (stack : List String) :
    (l.run statement).events = l.announced [.ofAction (.apply statement) stack] := by
  unfold run announced
  simp only [Step.ofAction, perform]
  cases hprocess : l.process statement with
  | error error => rfl
  | ok after => simp [Except.mapError, eventsOf_eq_announcement hprocess, Run.done, announced]

theorem loadFile_eq (l : Ledger) (files : Files) (stack : List String) (path : String) :
    l.loadFile files stack path =
      if path ∈ stack then .fail (.cycle path stack)
      else .after [.fileRead path] <|
        match files.tokensOf stack path with
        | .error error => .fail error
        | .ok tokens => l.loadTokens files (stack ++ [path]) (some path) tokens := by
  rw [loadFile]
  by_cases hpath : path ∈ stack
  · rw [dif_pos hpath, if_pos hpath]
  · rw [dif_neg hpath, if_neg hpath]
    exact congrArg _ (files.match_tokensOf hpath Run.fail _)

theorem result_loadFile_eq (l : Ledger) (files : Files) (stack : List String) (path : String) :
    (l.loadFile files stack path).result =
      match files.tokensOf stack path with
      | .error error => .error ⟨error, []⟩
      | .ok tokens => (l.loadTokens files (stack ++ [path]) (some path) tokens).result := by
  rw [loadFile_eq]
  by_cases hpath : path ∈ stack
  · rw [if_pos hpath, Files.tokensOf_of_mem hpath]
    rfl
  · rw [if_neg hpath, Run.result_after]
    cases files.tokensOf stack path <;> rfl

theorem loadTarget_eq (l : Ledger) (files : Files) (stack : List String) (target : Path) :
    l.loadTarget files stack target =
      match files.resolve target with
      | .error error => .fail (.unresolvable error)
      | .ok path => l.loadFile files stack path := by
  unfold loadTarget
  rfl

theorem load_of_unresolvable (l : Ledger) {files : Files} {source : Option String}
    {error : PathError} (h : files.nameOf source = .error error) (text : String) :
    l.load files text source = .fail (.unresolvable error) := by
  rw [load, h]

/-! ## Runs that follow steps -/

/-- The run ends as the steps do when they are followed, and what it announces on the way is what
they announce. -/
structure FollowedBy (l : Ledger) (steps : List Step) (r : Run Ledger) : Prop where
  result : r.result = l.follow steps
  lines : r.events.filterMap Event.notice? = (l.announced steps).filterMap Event.notice?

namespace FollowedBy

variable {l : Ledger} {steps : List Step} {r : Run Ledger}

theorem done (l : Ledger) : l.FollowedBy [] (.done l) := ⟨rfl, rfl⟩

theorem stop (l : Ledger) (error : LoadError) (stack : List String) :
    l.FollowedBy [.ofAction (.stop error) stack] (.fail error) := ⟨rfl, rfl⟩

/-- Reading a file is not announced. -/
theorem read (h : l.FollowedBy steps r) (path : String) :
    l.FollowedBy steps (.after [.fileRead path] r) := ⟨h.result, h.lines⟩

theorem enter (h : l.FollowedBy steps r) (target : String) (stack : List String) :
    l.FollowedBy (.ofAction (.enter target) stack :: steps)
      (.after [.includeStarted target] r) where
  result := h.result
  lines := by
    simp only [Run.events_after, announced, perform, Step.ofAction, List.filterMap_append, h.lines]
    rfl

/-- Steps with a note on them, and then others. -/
theorem andThen (h : l.FollowedBy steps r) (hsafe : ∀ step ∈ steps, step.IsSafe) {rest : List Step}
    {f : Ledger → Run Ledger} (hf : ∀ middle, FollowedBy middle rest (f middle)) (note : String) :
    l.FollowedBy (steps.map (·.within note) ++ rest) ((r.addNote note).andThen f) where
  result := by
    rw [Run.result_andThen, Run.result_addNote, h.result, follow_append,
      follow_map_within l note hsafe]
    congr 1
    funext middle
    exact (hf middle).result
  lines := by
    rw [announced_append, announced_map_within, follow_map_within l note hsafe,
      List.filterMap_append, ← h.lines, ← h.result]
    unfold Run.andThen
    rw [Run.result_addNote]
    cases r.result with
    | error failure => simp [Except.mapError]
    | ok middle =>
      simp only [Except.mapError, Run.events_addNote, List.filterMap_append, (hf middle).lines]

end FollowedBy

theorem followedBy_run (l : Ledger) (statement : Statement) (stack : List String) :
    l.FollowedBy [.ofAction (.apply statement) stack] (l.run statement) where
  result := by
    rw [follow_singleton, result_run]
    rfl
  lines := by rw [l.events_run statement stack]

section

variable {files : Files} {stack : List String} {source : Option String}
  (h : ∀ (l : Ledger) path, files.IsResolved path →
    l.FollowedBy (files.expand stack path) (l.loadFile files stack path))

include h

theorem followedBy_loadTarget (l : Ledger) {target : Path} (htarget : target.IsRead) :
    l.FollowedBy (files.expandTarget stack target) (l.loadTarget files stack target) := by
  rw [loadTarget_eq, Files.expandTarget_eq]
  cases hpath : files.resolve target with
  | error error => exact .stop l _ stack
  | ok path => exact h l path (Files.isResolved_of_resolve htarget hpath)

theorem followedBy_runToken (l : Ledger) (t : Token) :
    l.FollowedBy (files.stepsOf stack source t) (l.runToken files stack source t) := by
  unfold runToken Files.stepsOf
  cases Directive.ofToken t with
  | error error => exact .stop l _ stack
  | ok d =>
    cases d with
    | option key value => exact ⟨rfl, rfl⟩
    | statement statement => exact l.followedBy_run statement stack
    | includeFile path =>
      exact (followedBy_loadTarget h l (files.isRead_includeTarget source path)).enter _ stack

theorem followedBy_loadTokens (hsource : ∀ file ∈ source, files.IsResolved file)
    {tokens : List Token} (htokens : ∀ t ∈ tokens, t.IsDirective) (l : Ledger) :
    l.FollowedBy (files.expandTokens stack source tokens)
      (l.loadTokens files stack source tokens) := by
  induction tokens generalizing l with
  | nil =>
    rw [loadTokens_nil, Files.expandTokens_nil]
    exact .done l
  | cons t ts ih =>
    have hsafe := Files.isSafe_stepsOf stack hsource (htokens t (by simp))
    rw [loadTokens_cons, Files.expandTokens_cons]
    exact (followedBy_runToken h l t).andThen hsafe (ih fun t ht => htokens t (by simp [ht])) _

end

theorem followedBy_loadFile (files : Files) (stack : List String) :
    ∀ (l : Ledger) path, files.IsResolved path →
      l.FollowedBy (files.expand stack path) (l.loadFile files stack path) := by
  induction stack using files.stack_induction with
  | h stack ih =>
    intro l path hresolved
    rw [loadFile_eq, Files.expand_eq]
    by_cases hpath : path ∈ stack
    · rw [if_pos hpath, Files.tokensOf_of_mem hpath]
      exact .stop l _ _
    rw [if_neg hpath]
    cases h : files.tokensOf stack path with
    | error error => exact (FollowedBy.stop l _ _).read path
    | ok tokens =>
      obtain ⟨_, text, hread, htokens⟩ := Files.tokensOf_eq_ok h
      exact (followedBy_loadTokens (ih path text hpath hread) hresolved.forall_mem_some
        (fun t => Source.isDirective_of_mem htokens) l).read path

theorem followedBy_load (l : Ledger) (files : Files) (text : String) (source : Option String) :
    l.FollowedBy (files.expandText text source) (l.load files text source) := by
  unfold load Files.expandText
  cases hname : files.nameOf source with
  | error error => exact .stop l _ _
  | ok name =>
    cases h : (Source.ofText text name).tokens with
    | error error =>
      simp only [h]
      exact .stop l _ _
    | ok tokens =>
      simp only [h]
      exact followedBy_loadTokens (followedBy_loadFile files _) (Files.isResolved_of_nameOf hname)
        (fun t => Source.isDirective_of_mem h) l

theorem followedBy_loadPath (l : Ledger) (files : Files) (path : String) :
    l.FollowedBy (files.expandPath path) (l.loadPath files path) :=
  followedBy_loadTarget (followedBy_loadFile files []) l (Path.isRead_ofText path)

theorem result_load (l : Ledger) (files : Files) (text : String) (source : Option String) :
    (l.load files text source).result = l.follow (files.expandText text source) :=
  (l.followedBy_load files text source).result

theorem result_loadPath (l : Ledger) (files : Files) (path : String) :
    (l.loadPath files path).result = l.follow (files.expandPath path) :=
  (l.followedBy_loadPath files path).result

/-- Steps in front of a stop are taken first, and what they fail with wins; those after it are never
taken. -/
theorem follow_stop (l : Ledger) (before after : List Step) (error : LoadError)
    (stack trail : List String) :
    l.follow (before ++ ⟨.stop error, stack, trail⟩ :: after) =
      (l.follow before).bind fun _ => .error ⟨error, trail⟩ := by
  rw [follow_append]
  rfl

/-- A load ends as the expansion does when its steps are followed: with the same ledger, or the same
failure. A file that cannot be taken apart is a stop in it, after the steps in front of its
include. -/
theorem load_eq_follow_expansion (l : Ledger) (files : Files) :
    (∀ text source, (l.load files text source).result = l.follow (files.expandText text source)) ∧
      (∀ path, (l.loadPath files path).result = l.follow (files.expandPath path)) ∧
      (∀ stack path, files.expand stack path =
        match files.tokensOf stack path with
        | .error error => [.ofAction (.stop error) (Files.stackAt stack path error)]
        | .ok tokens => files.expandTokens (stack ++ [path]) (some path) tokens) ∧
      ∀ before error stack trail after,
        l.follow (before ++ ⟨.stop error, stack, trail⟩ :: after) =
          (l.follow before).bind fun _ => .error ⟨error, trail⟩ :=
  ⟨l.result_load files, l.result_loadPath files, files.expand_eq,
    fun before error stack trail after => l.follow_stop before after error stack trail⟩

end Ledger
end DoubleEntry
