import DoubleEntry.Load.IncludeGraph
import DoubleEntry.Proofs.Load.Stages
import Mathlib.Data.List.Nodup

/-! Include cycles and the loads that meet them. The stops in an expansion are told from the include
graph: where there is a cycle that the root leads to, a walk along it makes the stack grow until a
file of the cycle is asked for again. -/
namespace DoubleEntry

/-! ## Stops of an expansion -/

/-- Why a directive of a text stops any ledger, whatever is in the files. -/
def Files.fault? (files : Files) (source : Option String) (t : Token) : Option LoadError :=
  match Directive.ofToken t with
  | .error error => some (.meaning error)
  | .ok (.includeFile path) =>
    match files.resolve (files.includeTarget source path) with
    | .error error => some (.unresolvable error)
    | .ok _ => none
  | .ok _ => none

/-- Whatever stops the steps is an error of the given kind. -/
def StopsWith (P : LoadError → Prop) (steps : List Step) : Prop :=
  ∀ step ∈ steps, ∀ error, step.action = .stop error → P error

namespace StopsWith

variable {P : LoadError → Prop} {files : Files} {stack : List String}

theorem append_iff {steps steps' : List Step} :
    StopsWith P (steps ++ steps') ↔ StopsWith P steps ∧ StopsWith P steps' := by
  simp only [StopsWith, List.mem_append, or_imp, forall_and]

theorem map_within_iff {steps : List Step} {note : String} :
    StopsWith P (steps.map (·.within note)) ↔ StopsWith P steps := by
  simp [StopsWith, Step.within]

theorem expand_iff {path : String} :
    StopsWith P (files.expand stack path) ↔
      match files.tokensOf stack path with
      | .error error => P error
      | .ok tokens => StopsWith P (files.expandTokens (stack ++ [path]) (some path) tokens) := by
  rw [Files.expand_eq]
  cases files.tokensOf stack path with
  | error error => simp [StopsWith, Step.ofAction]
  | ok tokens => rfl

theorem stepsOf_iff {source : Option String} {t : Token} :
    StopsWith P (files.stepsOf stack source t) ↔
      (∀ error, files.fault? source t = some error → P error) ∧
        ∀ target ∈ Source.includesAmong files source [t],
          StopsWith P (files.expand stack target) := by
  unfold Files.stepsOf Files.fault? Source.includesAmong
  cases h : Directive.ofToken t with
  | error error => simp [h, StopsWith, Step.ofAction]
  | ok d =>
    cases d with
    | includeFile path =>
      simp only [Files.expandTarget_eq]
      cases hpath : files.resolve (files.includeTarget source path) <;>
        simp [h, hpath, StopsWith, Step.ofAction, Except.toOption]
    | _ => simp [h, StopsWith, Step.ofAction]

theorem expandTokens_iff {source : Option String} {tokens : List Token} :
    StopsWith P (files.expandTokens stack source tokens) ↔
      (∀ t ∈ tokens, ∀ error, files.fault? source t = some error → P error) ∧
        ∀ target ∈ Source.includesAmong files source tokens,
          StopsWith P (files.expand stack target) := by
  induction tokens with
  | nil => simp [Files.expandTokens_nil, StopsWith, Source.includesAmong]
  | cons t ts ih =>
    have hincludes : Source.includesAmong files source (t :: ts) =
        Source.includesAmong files source [t] ++ Source.includesAmong files source ts := by
      rw [← List.singleton_append, Source.includesAmong, List.filterMap_append]
      rfl
    rw [Files.expandTokens_cons, append_iff, map_within_iff, stepsOf_iff, ih, hincludes]
    simp only [List.mem_append, or_imp, forall_and, List.forall_mem_cons]
    exact and_and_and_comm

end StopsWith

namespace Ledger

theorem stopsWith_of_follow_ok {l after : Ledger} {steps : List Step}
    (h : l.follow steps = .ok after) : StopsWith (fun _ => False) steps := by
  induction steps generalizing l with
  | nil => simp [StopsWith]
  | cons step steps ih =>
    rw [follow] at h
    split at h
    · contradiction
    · rename_i middle hperform
      intro other hother error hstop
      rcases List.mem_cons.1 hother with rfl | hother
      · rw [hstop] at hperform
        contradiction
      · exact ih h other hother error hstop

/-- A failure is that of a statement, or is a stop. -/
theorem error_of_follow {P : LoadError → Prop} {l : Ledger} {steps : List Step} {failure : Failure}
    (hsteps : StopsWith P steps) (h : l.follow steps = .error failure) :
    (∃ error, failure.error = .statement error) ∨ P failure.error := by
  induction steps generalizing l with
  | nil => contradiction
  | cons step steps ih =>
    rw [follow] at h
    split at h
    · rename_i error hperform
      cases h
      have hstep := hsteps step (by simp)
      cases haction : step.action with
      | apply statement =>
        rw [haction, perform] at hperform
        cases hprocess : l.process statement with
        | ok after =>
          rw [hprocess] at hperform
          contradiction
        | error error =>
          rw [hprocess] at hperform
          cases hperform
          exact .inl ⟨_, rfl⟩
      | stop error =>
        rw [haction] at hperform
        cases hperform
        exact .inr (hstep _ haction)
      | _ =>
        rw [haction] at hperform
        contradiction
    · exact ih (fun step hstep => hsteps step (by simp [hstep])) h

end Ledger

/-! ## Walks in the include graph -/

namespace IncludeGraph

variable {g : IncludeGraph} {stack : List String}

/-- The root may not be included again. -/
def Guards (g : IncludeGraph) (stack : List String) : Prop :=
  ∀ path, g.root.name = some path → path ∈ stack

theorem Guards.mono {stack' : List String} (h : g.Guards stack) (hsub : stack ⊆ stack') :
    g.Guards stack' := fun path hpath => hsub (h path hpath)

theorem Guards.sourceAt (h : g.Guards stack) {path : String} (hpath : path ∉ stack) :
    g.sourceAt path = (g.files.read path).toOption.map (Source.ofText · (some path)) :=
  if_neg fun heq => hpath (h path heq)

theorem mem_includes_iff {s : Source} {tokens : List Token} (h : s.tokens = .ok tokens)
    {files : Files} {target : String} :
    target ∈ s.includes files ↔ target ∈ Source.includesAmong files s.name tokens := by
  rw [Source.includes, h]

theorem mem_includes_ofText {text path : String} {tokens : List Token}
    (h : (Source.ofText text (some path)).tokens = .ok tokens) {files : Files} {target : String} :
    target ∈ (Source.ofText text (some path)).includes files ↔
      target ∈ Source.includesAmong files (some path) tokens := mem_includes_iff h

/-! ### From a stop to the graph -/

/-- What an error that stops the expansion says about the graph. -/
def Explains (g : IncludeGraph) : LoadError → Prop
  | .cycle path _ => g.Reaches path ∧ g.OnCycle path
  | .unreadable .. | .parse _ => ¬ g.Complete
  | .meaning _ | .statement _ | .unresolvable _ => True

theorem explains_of_fault? {source : Option String} {t : Token} {error : LoadError}
    (h : g.files.fault? source t = some error) : g.Explains error := by
  unfold Files.fault? at h
  split at h
  · cases h
    exact trivial
  · split at h
    · cases h
      exact trivial
    · contradiction
  · contradiction

theorem explains_of_tokensOf (hstack : g.Guards stack) {path : String} (hpath : g.Reaches path)
    (hchain : ∀ p ∈ stack, Relation.TransGen g.Includes p path) {error : LoadError}
    (h : g.files.tokensOf stack path = .error error) : g.Explains error := by
  by_cases hmem : path ∈ stack
  · rw [Files.tokensOf_of_mem hmem] at h
    cases h
    exact ⟨hpath, hchain path hmem⟩
  have hsource := hstack.sourceAt hmem
  rw [Files.tokensOf_of_not_mem _ hmem] at h
  cases hread : g.files.read path with
  | error reason =>
    rw [hread] at h hsource
    cases h
    intro hcomplete
    obtain ⟨source, _, hsome, _⟩ := hcomplete path hpath
    rw [hsource] at hsome
    contradiction
  | ok text =>
    rw [hread] at hsource
    simp only [hread] at h
    cases htokens : (Source.ofText text (some path)).tokens with
    | ok tokens =>
      rw [htokens] at h
      contradiction
    | error fault =>
      rw [htokens] at h
      cases h
      intro hcomplete
      obtain ⟨source, tokens, hsome, hok⟩ := hcomplete path hpath
      rw [hsource] at hsome
      cases hsome
      rw [htokens] at hok
      contradiction

/-- A stack on which every file leads to the one that is asked for next. -/
theorem stopsWith_expand (stack : List String) :
    ∀ path, g.Guards stack → g.Reaches path →
      (∀ p ∈ stack, Relation.TransGen g.Includes p path) →
      StopsWith g.Explains (g.files.expand stack path) := by
  induction stack using g.files.stack_induction with
  | h stack ih =>
    intro path hstack hpath hchain
    rw [StopsWith.expand_iff]
    cases htokensOf : g.files.tokensOf stack path with
    | error error => exact explains_of_tokensOf hstack hpath hchain htokensOf
    | ok tokens =>
      obtain ⟨hmem, text, hread, htokens⟩ := Files.tokensOf_eq_ok htokensOf
      have hsource := hstack.sourceAt hmem
      rw [hread] at hsource
      refine StopsWith.expandTokens_iff.2
        ⟨fun _ _ _ => explains_of_fault?, fun target htarget => ?_⟩
      have hincludes : g.Includes path target :=
        ⟨_, hsource, (mem_includes_ofText htokens).2 htarget⟩
      -- one level down, the file on top leads on to the target and so do those below it
      refine ih path text hmem hread target (hstack.mono (List.subset_append_left ..))
        (hpath.step hincludes) fun p hp => ?_
      rcases List.mem_append.1 hp with hp | hp
      · exact (hchain p hp).tail hincludes
      · rw [List.mem_singleton.1 hp]
        exact .single hincludes

/-! ### From a cycle to a stop -/

/-- The expansion of a file goes through, with all that it includes. -/
structure Clear (g : IncludeGraph) (stack : List String) (path : String) : Prop where
  guards : g.Guards stack
  expand : StopsWith (fun _ => False) (g.files.expand stack path)

theorem Clear.not_mem {path : String} (h : g.Clear stack path) : path ∉ stack := by
  intro hmem
  have hstop := StopsWith.expand_iff.1 h.expand
  rw [Files.tokensOf_of_mem hmem] at hstop
  exact hstop

/-- The files that it includes go through with one more file on the stack. -/
theorem Clear.includes {path target : String} (h : g.Clear stack path)
    (hincludes : g.Includes path target) : g.Clear (stack ++ [path]) target := by
  have hmem := h.not_mem
  have hexpand := StopsWith.expand_iff.1 h.expand
  cases htokensOf : g.files.tokensOf stack path with
  | error error =>
    rw [htokensOf] at hexpand
    exact hexpand.elim
  | ok tokens =>
    rw [htokensOf] at hexpand
    obtain ⟨_, text, hread, htokens⟩ := Files.tokensOf_eq_ok htokensOf
    obtain ⟨source, hsource, htarget⟩ := hincludes
    rw [h.guards.sourceAt hmem, hread] at hsource
    cases hsource
    exact ⟨h.guards.mono (List.subset_append_left ..),
      (StopsWith.expandTokens_iff.1 hexpand).2 target ((mem_includes_ofText htokens).1 htarget)⟩

theorem Clear.chain {path target : String} (h : g.Clear stack path)
    (hchain : Relation.ReflTransGen g.Includes path target) :
    ∃ deeper, stack ⊆ deeper ∧ g.Clear deeper target := by
  induction hchain with
  | refl => exact ⟨stack, List.Subset.refl _, h⟩
  | @tail middle target _ hincludes ih =>
    obtain ⟨deeper, hsub, hclear⟩ := ih
    have hdeeper : stack ⊆ deeper ++ [middle] :=
      List.Subset.trans hsub (List.subset_append_left ..)
    exact ⟨deeper ++ [middle], hdeeper, hclear.includes hincludes⟩

/-- A file that is on the stack wherever its includes go through is on no cycle. -/
theorem not_onCycle_of_clear (stack : List String) {path : String} (hpath : path ∈ stack)
    (h : ∀ target, g.Includes path target → g.Clear stack target) : ¬ g.OnCycle path := by
  intro hcycle
  obtain ⟨target, hincludes, hchain⟩ := Relation.TransGen.head'_iff.1 hcycle
  obtain ⟨deeper, hsub, hclear⟩ := (h target hincludes).chain hchain
  exact hclear.not_mem (hsub hpath)

theorem clear_of_reaches (h : ∀ target ∈ g.root.includes g.files, g.Clear stack target)
    {path : String} (hpath : g.Reaches path) :
    g.root.name = some path ∨ ∃ deeper, g.Clear deeper path := by
  induction hpath with
  | root hname => exact .inl hname
  | direct htarget => exact .inr ⟨stack, h _ htarget⟩
  | step _ hincludes ih =>
    rcases ih with hname | ⟨deeper, hclear⟩
    · obtain ⟨source, hsource, htarget⟩ := hincludes
      rw [sourceAt, if_pos hname] at hsource
      cases hsource
      exact .inr ⟨stack, h _ htarget⟩
    · exact .inr ⟨_, hclear.includes hincludes⟩

theorem not_onCycle_of_root_clear
    (h : ∀ target ∈ g.root.includes g.files, g.Clear g.root.name.toList target) {path : String}
    (hpath : g.Reaches path) : ¬ g.OnCycle path := by
  rcases clear_of_reaches h hpath with hname | ⟨deeper, hclear⟩
  · refine not_onCycle_of_clear g.root.name.toList (by simp [hname]) ?_
    rintro target ⟨source, hsource, htarget⟩
    rw [sourceAt, if_pos hname] at hsource
    cases hsource
    exact h target htarget
  · refine not_onCycle_of_clear (deeper ++ [path]) (by simp) fun target hincludes => ?_
    exact hclear.includes hincludes

/-! ## The root -/

theorem isResolved_of_mem_includes {s : Source} {files : Files} {target : String}
    (h : target ∈ s.includes files) : files.IsResolved target := by
  unfold Source.includes at h
  split at h
  · obtain ⟨t, _, ht⟩ := List.mem_filterMap.1 h
    split at ht
    · exact Files.isResolved_of_resolve (files.isRead_includeTarget _ _) (toOption_eq_some_iff.1 ht)
    · contradiction
  · simp at h

theorem isResolved_of_reaches {files : Files} {text : String} {name : Option String}
    (hname : ∀ path ∈ name, files.IsResolved path) {path : String}
    (h : (ofText files text name).Reaches path) : files.IsResolved path := by
  cases h with
  | root hroot => exact hname path hroot
  | direct hmem => exact isResolved_of_mem_includes hmem
  | step _ hstep =>
    obtain ⟨_, _, hmem⟩ := hstep
    exact isResolved_of_mem_includes hmem

/-- A root that includes nothing leads to no file but its own. -/
theorem not_onCycle_of_includes_nil (h : g.root.includes g.files = []) {path : String}
    (hpath : g.Reaches path) : ¬ g.OnCycle path :=
  not_onCycle_of_root_clear (fun target htarget => by simp [h] at htarget) hpath

theorem complete_of_isClosed (paths : List String) (h : g.isClosed paths = true) : g.Complete := by
  simp only [isClosed, Bool.and_eq_true, List.all_eq_true, decide_eq_true_eq,
    List.mem_append, Option.mem_toList] at h
  obtain ⟨hroot, hpaths⟩ := h
  have hsource {path : String} (hpath : path ∈ paths) : ∃ source tokens,
      g.sourceAt path = some source ∧ source.tokens = .ok tokens ∧
        ∀ target ∈ source.includes g.files, target ∈ paths := by
    have hclosed := hpaths path hpath
    split at hclosed
    · contradiction
    · rename_i source hsome
      simp only [Bool.and_eq_true, List.all_eq_true, decide_eq_true_eq] at hclosed
      obtain ⟨tokens, htokens⟩ := Option.isSome_iff_exists.1 hclosed.1
      exact ⟨source, tokens, hsome, toOption_eq_some_iff.1 htokens, hclosed.2⟩
  have hmem {path : String} (hpath : g.Reaches path) : path ∈ paths := by
    induction hpath with
    | root hname => exact hroot _ (.inl hname)
    | direct htarget => exact hroot _ (.inr htarget)
    | step _ hincludes ih =>
      obtain ⟨source, hsome, htarget⟩ := hincludes
      obtain ⟨_, _, hsome', _, hclosed⟩ := hsource ih
      rw [hsome] at hsome'
      cases hsome'
      exact hclosed _ htarget
  intro path hpath
  obtain ⟨source, tokens, hsome, htokens, _⟩ := hsource (hmem hpath)
  exact ⟨source, tokens, hsome, htokens⟩

/-- The steps of the root and of all that it includes. -/
def expansion (g : IncludeGraph) : List Step :=
  match g.root.tokens with
  | .error error => [.ofAction (.stop (.parse error)) g.root.name.toList]
  | .ok tokens => g.files.expandTokens g.root.name.toList g.root.name tokens

theorem expansion_ofText {files : Files} {source name : Option String}
    (hname : files.nameOf source = .ok name) (text : String) :
    (ofText files text name).expansion = files.expandText text source := by
  rw [Files.expandText, hname]
  rfl

theorem guards_root (g : IncludeGraph) : g.Guards g.root.name.toList :=
  fun _ hname => Option.mem_toList.2 hname

theorem stopsWith_expansion {tokens : List Token} (htokens : g.root.tokens = .ok tokens) :
    StopsWith g.Explains g.expansion := by
  rw [expansion, htokens]
  refine StopsWith.expandTokens_iff.2 ⟨fun _ _ _ => explains_of_fault?, fun target htarget => ?_⟩
  rw [← mem_includes_iff htokens] at htarget
  refine stopsWith_expand _ target g.guards_root (.direct htarget) fun p hp => ?_
  exact .single ⟨g.root, if_pos (Option.mem_toList.1 hp), htarget⟩

theorem root_clear (h : StopsWith (fun _ => False) g.expansion) :
    ∀ target ∈ g.root.includes g.files, g.Clear g.root.name.toList target := by
  intro target htarget
  cases htokens : g.root.tokens with
  | error error => simp [Source.includes, htokens] at htarget
  | ok tokens =>
    rw [expansion, htokens] at h
    rw [mem_includes_iff htokens] at htarget
    exact ⟨g.guards_root, (StopsWith.expandTokens_iff.1 h).2 target htarget⟩

end IncludeGraph

/-! ## Loads -/

/-- Is about a directive that was read but could not be applied. -/
def LoadError.isOfDirective : LoadError → Bool
  | .meaning _ | .statement _ => true
  | _ => false

/-- The failure of an include that would go on without end. -/
def FailsWithCycle (result : Except Failure Ledger) : Prop :=
  ∃ path chain notes, result = .error ⟨.cycle path chain, notes⟩

namespace Ledger

open IncludeGraph

theorem failsWithCycle_follow_iff (l : Ledger) {g : IncludeGraph} (hcomplete : g.Complete)
    (hnamed : FailsWith (l.follow g.expansion) fun failure => failure.error.isLedgerError = true)
    (happlied : ∀ failure, l.follow g.expansion = .error failure →
      failure.error.isOfDirective = false) :
    FailsWithCycle (l.follow g.expansion) ↔ ∃ path, g.Reaches path ∧ g.OnCycle path := by
  cases htokens : g.root.tokens with
  | error error =>
    have hnil : g.root.includes g.files = [] := by simp [Source.includes, htokens]
    have hfollow : l.follow g.expansion = .error ⟨.parse error, []⟩ := by
      rw [expansion, htokens]
      rfl
    rw [hfollow]
    constructor
    · rintro ⟨path, chain, notes, heq⟩
      cases heq
    · rintro ⟨path, hpath, hcycle⟩
      exact absurd hcycle (not_onCycle_of_includes_nil hnil hpath)
  | ok tokens =>
    have hstops := stopsWith_expansion htokens
    constructor
    · rintro ⟨path, chain, notes, hfollow⟩
      rcases error_of_follow hstops hfollow with ⟨error, heq⟩ | hexplains
      · cases heq
      · exact ⟨path, hexplains⟩
    · rintro ⟨path, hpath, hcycle⟩
      cases hfollow : l.follow g.expansion with
      | ok after =>
        have hclear := root_clear (stopsWith_of_follow_ok hfollow)
        exact absurd hcycle (not_onCycle_of_root_clear hclear hpath)
      | error failure =>
        obtain ⟨error, notes⟩ := failure
        -- no statement and no meaning is at fault and every file reads, so a cycle is what is left
        have hother := happlied _ hfollow
        have hexplains : g.Explains error := by
          rcases error_of_follow hstops hfollow with ⟨_, heq⟩ | hexplains
          · cases heq
            contradiction
          · exact hexplains
        cases error with
        | cycle path chain => exact ⟨path, chain, notes, rfl⟩
        | unreadable path reason => exact absurd hcomplete hexplains
        | parse error => exact absurd hcomplete hexplains
        | meaning error => contradiction
        | statement error => contradiction
        | unresolvable error =>
          have hkind := hnamed _ hfollow
          contradiction

theorem result_loadPath_of_read (l : Ledger) {files : Files} {path target text : String}
    (htarget : files.resolve (.ofText path) = .ok target) (hread : files.read target = .ok text) :
    (l.loadPath files path).result = (l.load files text (some path)).result := by
  have hname := Files.nameOf_of_resolve htarget
  rw [loadPath, loadTarget_eq, htarget, load, hname]
  simp only
  rw [result_loadFile_eq, files.tokensOf_of_not_mem List.not_mem_nil, hread]
  simp only
  cases (Source.ofText text (some target)).tokens <;> rfl

theorem isBounded_of_nested {files : Files} {given : Option String} (root : Option String)
    {stage : LoadStage} (h : Nested files root stage.sources)
    (hroot : ∀ path, root = some path → files.IsResolved path ∧
      (files.nameOf given = .ok (some path) ∨ ∃ text, files.read path = .ok text)) :
    stage.IsBounded files given := by
  refine ⟨List.nodup_reverse.2 h.nodup, fun path hpath => ?_, fun path hpath => ?_, h.length_le⟩
  · rcases h.origin (List.mem_reverse.1 hpath) with heq | ⟨hread, _⟩
    · exact (hroot path heq).2
    · exact .inr hread
  · rcases h.origin (List.mem_reverse.1 hpath) with heq | ⟨_, hresolved⟩
    · exact (hroot path heq).1
    · exact hresolved

/-- Nothing is being loaded yet, and so there is no root. -/
theorem isBounded_of_nothing {files : Files} {given : Option String} {stage : LoadStage}
    (h : stage.sources = []) (steps : Nat) :
    LoadStage.IsBounded files given ((LoadStage.next files)^[steps] stage) := by
  have hnested : Nested files none stage.sources := h ▸ .nothing
  exact isBounded_of_nested none (LoadStage.nested_run hnested steps) (by simp)

theorem isBounded_load (l : Ledger) (files : Files) (text : String) (source : Option String)
    (steps : Nat) :
    LoadStage.IsBounded files source
      ((LoadStage.next files)^[steps] (l.opening files text source)) := by
  unfold opening
  cases hname : files.nameOf source with
  | error error => exact isBounded_of_nothing rfl steps
  | ok name =>
    refine isBounded_of_nested _ (LoadStage.nested_run .root steps) fun path heq => ?_
    obtain rfl : name = some path := heq
    exact ⟨Files.isResolved_of_nameOf hname path rfl, .inl hname⟩

theorem isBounded_loadPath (l : Ledger) (files : Files) (path : String) (steps : Nat) :
    LoadStage.IsBounded files none ((LoadStage.next files)^[steps] (l.openingPath files path)) := by
  unfold openingPath LoadStage.enterTarget
  cases htarget : files.resolve (.ofText path) with
  | error error => exact isBounded_of_nothing rfl steps
  | ok target =>
    simp only [LoadStage.enter]
    rw [if_neg (by exact List.not_mem_nil)]
    cases hread : files.read target with
    | error reason => exact isBounded_of_nothing rfl steps
    | ok text =>
      refine isBounded_of_nested _ (LoadStage.nested_run .root steps) fun p heq => ?_
      cases heq
      exact ⟨Files.isResolved_of_resolve (Path.isRead_ofText path) htarget, .inr ⟨text, hread⟩⟩

/-- At every stage of a load the include stack holds different files, each under its resolved path,
and so is no longer than there are files; the load ends. Where everything that the root leads to can
be read and applied, it ends with an include cycle exactly if the root leads to one. A root that no
file can be is not loaded. -/
theorem load_ends_and_finds_cycles (l : Ledger) (files : Files) :
    (∀ text source,
      (∀ steps, LoadStage.IsBounded files source
        ((LoadStage.next files)^[steps] (l.opening files text source))) ∧
      LoadStage.Leads files (l.opening files text source)
        (.ended (l.load files text source).result) ∧
      match files.nameOf source with
      | .error error => (l.load files text source).result = .error ⟨.unresolvable error, []⟩
      | .ok name =>
        (∀ path, (IncludeGraph.ofText files text name).Reaches path → files.IsResolved path) ∧
        ((IncludeGraph.ofText files text name).Complete →
          (∀ failure, (l.load files text source).result = .error failure →
            failure.error.isOfDirective = false) →
          (FailsWithCycle (l.load files text source).result ↔
            ∃ path, (IncludeGraph.ofText files text name).Reaches path ∧
              (IncludeGraph.ofText files text name).OnCycle path))) ∧
    ∀ path,
      (∀ steps, LoadStage.IsBounded files none
        ((LoadStage.next files)^[steps] (l.openingPath files path))) ∧
      LoadStage.Leads files (l.openingPath files path) (.ended (l.loadPath files path).result) ∧
      match files.resolve (.ofText path) with
      | .error error => (l.loadPath files path).result = .error ⟨.unresolvable error, []⟩
      | .ok target =>
        ∀ text, files.read target = .ok text →
          (IncludeGraph.ofText files text (some target)).Complete →
          (∀ failure, (l.loadPath files path).result = .error failure →
            failure.error.isOfDirective = false) →
          (FailsWithCycle (l.loadPath files path).result ↔
            ∃ other, (IncludeGraph.ofText files text (some target)).Reaches other ∧
              (IncludeGraph.ofText files text (some target)).OnCycle other) := by
  have hiff (text : String) {source name : Option String} (hname : files.nameOf source = .ok name)
      (hcomplete : (IncludeGraph.ofText files text name).Complete)
      (happlied : ∀ failure, (l.load files text source).result = .error failure →
        failure.error.isOfDirective = false) :
      FailsWithCycle (l.load files text source).result ↔
        ∃ path, (IncludeGraph.ofText files text name).Reaches path ∧
          (IncludeGraph.ofText files text name).OnCycle path := by
    have hnamed := l.follow_failsWith (Files.isSafe_expandText hname text)
    rw [result_load, ← expansion_ofText hname] at happlied ⊢
    rw [← expansion_ofText hname] at hnamed
    exact l.failsWithCycle_follow_iff hcomplete hnamed happlied
  refine ⟨fun text source =>
      ⟨l.isBounded_load files text source, l.leads_load files text source, ?_⟩,
    fun path => ⟨l.isBounded_loadPath files path, l.leads_loadPath files path, ?_⟩⟩
  · cases hname : files.nameOf source with
    | error error =>
      rw [l.load_of_unresolvable hname]
      rfl
    | ok name =>
      exact ⟨fun _ => isResolved_of_reaches (Files.isResolved_of_nameOf hname), hiff text hname⟩
  · cases htarget : files.resolve (.ofText path) with
    | error error =>
      rw [loadPath, loadTarget_eq, htarget]
      rfl
    | ok target =>
      intro text hread
      rw [l.result_loadPath_of_read htarget hread]
      exact hiff text (Files.nameOf_of_resolve htarget)

/-- Two files that include a third one, which they spell differently. -/
def sharedFiles (shared : String) : Files :=
  ((Files.empty.insert "/books/bank" (.text "include \"units\"\n")).insert
    "/books/till" (.text "include \"./old/../units\"\n")).insert "/books/units" (.text shared)

def sharedText : String := "include \"bank\"\ninclude \"till\"\n"

def sharedGraph (shared : String) : IncludeGraph :=
  .ofText (sharedFiles shared) sharedText (some "/books/main")

def loadShared (shared : String) : Except Failure Ledger :=
  ((empty false).load (sharedFiles shared) sharedText (some "books//main")).result

def sharedPaths : List String := ["/books/main", "/books/bank", "/books/till", "/books/units"]

/-- A file that two others include is on no cycle, unless it includes one of them itself. -/
theorem load_finds_cycle_through_shared :
    (∃ after, loadShared "unit EUR\n" = .ok after) ∧
    (¬ ∃ path, (sharedGraph "unit EUR\n").Reaches path ∧ (sharedGraph "unit EUR\n").OnCycle path) ∧
    FailsWithCycle (loadShared "include \"../books/./till\"\n") ∧
    ∃ path, (sharedGraph "include \"../books/./till\"\n").Reaches path ∧
      (sharedGraph "include \"../books/./till\"\n").OnCycle path := by
  have hcomplete : (sharedGraph "unit EUR\n").Complete :=
    complete_of_isClosed sharedPaths (by decide +kernel)
  have hcomplete' : (sharedGraph "include \"../books/./till\"\n").Complete :=
    complete_of_isClosed sharedPaths (by decide +kernel)
  have hnone : errorOf? (loadShared "unit EUR\n") = none := errorOf?_load 20 (by decide +kernel)
  have hcycle : errorOf? (loadShared "include \"../books/./till\"\n") = some (.cycle "/books/units"
      ["/books/main", "/books/bank", "/books/units", "/books/till"]) :=
    errorOf?_load 20 (by decide +kernel)
  have hiff := ((load_ends_and_finds_cycles (empty false) (sharedFiles "unit EUR\n")).1
    sharedText (some "books//main")).2.2.2 hcomplete
  have hiff' := ((load_ends_and_finds_cycles (empty false)
    (sharedFiles "include \"../books/./till\"\n")).1
    sharedText (some "books//main")).2.2.2 hcomplete'
  change (∀ failure, loadShared _ = _ → _) → (FailsWithCycle (loadShared _) ↔ _) at hiff hiff'
  cases hresult : loadShared "unit EUR\n" with
  | error failure =>
    rw [hresult] at hnone
    contradiction
  | ok after =>
  cases hresult' : loadShared "include \"../books/./till\"\n" with
  | ok after =>
    rw [hresult'] at hcycle
    contradiction
  | error failure =>
  obtain ⟨error, notes⟩ := failure
  rw [hresult] at hiff
  rw [hresult'] at hcycle hiff'
  cases hcycle
  have hfails : FailsWithCycle (.error ⟨.cycle "/books/units"
      ["/books/main", "/books/bank", "/books/units", "/books/till"], notes⟩) := ⟨_, _, _, rfl⟩
  refine ⟨⟨after, rfl⟩, ?_, hfails, ?_⟩
  · refine fun hmem => ?_
    obtain ⟨_, _, _, heq⟩ := (hiff fun _ h => by contradiction).2 hmem
    contradiction
  · refine (hiff' fun failure h => ?_).1 hfails
    cases h
    rfl

end Ledger
end DoubleEntry
