import DoubleEntry.Load.Stage
import DoubleEntry.Proofs.Load.Expansion
import DoubleEntry.Proofs.Path
import Mathlib.Data.List.Perm.Subperm

/-! What the stages of a load have in common, and where they lead. Two invariants carry this: the
texts around one another are different files, and recursion does in one call what the stages do
between the opening of a text and the return to the frames around it. -/
namespace DoubleEntry

/-! ## Texts inside one another -/

/-- The names of texts inside one another, the innermost first: of none, of the root alone, or of a
file that could be read inside others. -/
inductive Nested (files : Files) (root : Option String) : List (Option String) → Prop where
  | nothing : Nested files root []
  | root : Nested files root [root]
  | file {path text : String} {around : Option String} {sources : List (Option String)} :
      files.read path = .ok text → files.IsResolved path →
      path ∉ (around :: sources).reduceOption → Nested files root (around :: sources) →
      Nested files root (some path :: around :: sources)

namespace Nested

variable {files : Files} {root : Option String} {sources : List (Option String)}

theorem leave {source : Option String} (h : Nested files root (source :: sources)) :
    Nested files root sources := by
  cases h with
  | root => exact .nothing
  | file _ _ _ h => exact h

theorem nodup (h : Nested files root sources) : sources.reduceOption.Nodup := by
  induction h with
  | nothing => exact List.nodup_nil
  | root =>
    rw [List.reduceOption_singleton]
    cases root <;> simp
  | file _ _ houtside _ ih =>
    rw [List.reduceOption_cons_of_some]
    exact List.nodup_cons.2 ⟨houtside, ih⟩

theorem origin (h : Nested files root sources) {path : String}
    (hpath : path ∈ sources.reduceOption) :
    root = some path ∨ (∃ text, files.read path = .ok text) ∧ files.IsResolved path := by
  rw [List.reduceOption_mem_iff] at hpath
  induction h with
  | nothing => simp at hpath
  | root => exact .inl (List.mem_singleton.1 hpath).symm
  | file hread hresolved _ _ ih =>
    rcases List.mem_cons.1 hpath with heq | hpath
    · cases heq
      exact .inr ⟨⟨_, hread⟩, hresolved⟩
    · exact ih hpath

/-- All but the root are different files. -/
theorem length_le (h : Nested files root sources) : sources.length ≤ files.size + 1 := by
  have hfiles : ∃ paths : List String, paths ⊆ files.keys ∧ paths ⊆ sources.reduceOption ∧
      paths.Nodup ∧ sources.length ≤ paths.length + 1 := by
    induction h with
    | nothing => exact ⟨[], by simp⟩
    | root => exact ⟨[], by simp⟩
    | @file path text around sources hread _ houtside _ ih =>
      obtain ⟨paths, hkeys, hamong, hnodup, hlength⟩ := ih
      refine ⟨path :: paths, ?_, ?_, List.nodup_cons.2 ⟨fun h => houtside (hamong h), hnodup⟩, ?_⟩
      · exact List.cons_subset.2 ⟨Files.mem_keys_of_read hread, hkeys⟩
      · rw [List.reduceOption_cons_of_some]
        exact List.cons_subset_cons _ hamong
      · simpa using hlength
  obtain ⟨paths, hkeys, _, hnodup, hlength⟩ := hfiles
  have hle : paths.length ≤ files.keys.length := (List.Nodup.subperm hnodup hkeys).length_le
  have hsize : files.keys.length = files.size := by
    simp [Files.keys, Files.size, KeyedList.keys, KeyedList.size]
  omega

end Nested

namespace LoadStage

variable {files : Files} {root : Option String}

theorem sources_resume (frames : List LoadFrame) :
    (LoadFrame.resume frames).map (·.source) = frames.map (·.source) := by
  cases frames <;> rfl

/-- Opening a file inside others keeps them nested. -/
theorem nested_enter {l : Ledger} {frame : LoadFrame} {frames : List LoadFrame} {path : String}
    (hpath : files.IsResolved path) (h : Nested files root ((frame :: frames).map (·.source))) :
    Nested files root (enter files l path (frame :: frames)).sources := by
  unfold enter
  split
  · exact h
  · rename_i houtside
    split
    · exact h
    · rename_i text hread
      refine .file hread hpath ?_ h
      rwa [LoadFrame.stack, List.mem_reverse] at houtside

theorem nested_enterTarget {l : Ledger} {frame : LoadFrame} {frames : List LoadFrame}
    {target : Path} (htarget : target.IsRead)
    (h : Nested files root ((frame :: frames).map (·.source))) :
    Nested files root (enterTarget files l target (frame :: frames)).sources := by
  unfold enterTarget
  split
  · exact h
  · rename_i path hpath
    exact nested_enter (Files.isResolved_of_resolve htarget hpath) h

theorem nested_work {l : Ledger} {source : Option String} {t : Token} {ts : List Token}
    {frames : List LoadFrame} (h : Nested files root (source :: frames.map (·.source))) :
    Nested files root (work files l source t ts frames).sources := by
  unfold work
  split
  · exact h
  · exact h
  · split <;> exact h
  · exact nested_enterTarget (files.isRead_includeTarget _ _) h

theorem nested_next {stage : LoadStage} (h : Nested files root stage.sources) :
    Nested files root (next files stage).sources := by
  cases stage with
  | opened l text around =>
    rw [next]
    split
    · exact h.leave
    · exact h
  | working l frames =>
    rcases frames with _ | ⟨⟨source, _ | ⟨t, ts⟩⟩, frames⟩
    · exact .nothing
    · rw [next, sources, sources_resume]
      exact h.leave
    · exact nested_work h
  | failing failure frames =>
    cases frames with
    | nil => exact .nothing
    | cons frame frames => exact h.leave
  | ended result => exact .nothing

/-- What a step keeps, a whole run keeps. -/
theorem nested_run {stage : LoadStage} (h : Nested files root stage.sources) (steps : Nat) :
    Nested files root ((next files)^[steps] stage).sources := by
  induction steps with
  | zero => exact h
  | succ steps ih =>
    rw [Function.iterate_succ_apply']
    exact nested_next ih

/-! ## Where stages lead -/

theorem Leads.refl (stage : LoadStage) : Leads files stage stage := ⟨0, rfl⟩

theorem Leads.trans {first second third : LoadStage} (h : Leads files first second)
    (h' : Leads files second third) : Leads files first third := by
  obtain ⟨steps, rfl⟩ := h
  obtain ⟨more, rfl⟩ := h'
  exact ⟨more + steps, Function.iterate_add_apply ..⟩

theorem Leads.step {stage later : LoadStage} (h : Leads files (next files stage) later) :
    Leads files stage later := by
  obtain ⟨steps, rfl⟩ := h
  exact ⟨steps + 1, Function.iterate_succ_apply ..⟩

theorem leads_next (stage : LoadStage) : Leads files stage (next files stage) := (Leads.refl _).step

/-- Where a text, or one directive, leaves the frames around it. -/
def left (frames : List LoadFrame) : Except Failure Ledger → LoadStage
  | .ok after => .working after (LoadFrame.resume frames)
  | .error failure => .failing failure frames

/-- What the stages do with a file inside given frames is what `loadFile` does with it. -/
def Simulates (files : Files) (frames : List LoadFrame) : Prop :=
  ∀ (l : Ledger) (path : String), Leads files (enter files l path frames)
    (left frames (l.loadFile files (LoadFrame.stack frames) path).result)

theorem Simulates.leads_enterTarget {frames : List LoadFrame} (h : Simulates files frames)
    (l : Ledger) (target : Path) : Leads files (enterTarget files l target frames)
      (left frames (l.loadTarget files (LoadFrame.stack frames) target).result) := by
  rw [enterTarget, Ledger.loadTarget_eq]
  cases files.resolve target with
  | error error => exact .refl _
  | ok path => exact h l path

theorem leads_runToken {stack : List String} {source : Option String} {t : Token}
    {ts : List Token} {frames : List LoadFrame}
    (hstack : LoadFrame.stack (⟨source, t :: ts⟩ :: frames) = stack)
    (h : Simulates files (⟨source, t :: ts⟩ :: frames)) (l : Ledger) :
    Leads files (.working l (⟨source, t :: ts⟩ :: frames))
      (left (⟨source, t :: ts⟩ :: frames) (l.runToken files stack source t).result) := by
  refine Leads.step ?_
  subst hstack
  rw [next, work, Ledger.runToken]
  cases Directive.ofToken t with
  | error error => exact .refl _
  | ok d =>
    cases d with
    | option key value => exact .refl _
    | statement statement =>
      simp only [Ledger.run]
      cases l.process statement <;> exact .refl _
    | includeFile path => exact h.leads_enterTarget l _

theorem leads_loadTokens {stack : List String} {source : Option String} {tokens : List Token}
    {frames : List LoadFrame} (hstack : LoadFrame.stack (⟨source, tokens⟩ :: frames) = stack)
    (h : ∀ left, Simulates files (⟨source, left⟩ :: frames)) (l : Ledger) :
    Leads files (.working l (⟨source, tokens⟩ :: frames))
      (left frames (l.loadTokens files stack source tokens).result) := by
  induction tokens generalizing l with
  | nil =>
    rw [Ledger.loadTokens_nil]
    exact leads_next _
  | cons t ts ih =>
    have hdirective := leads_runToken hstack (h _) l
    rw [Ledger.loadTokens_cons, Run.result_andThen, Run.result_addNote]
    cases hrun : (l.runToken files stack source t).result with
    | ok after =>
      rw [hrun] at hdirective
      exact hdirective.trans (ih hstack after)
    | error failure =>
      rw [hrun] at hdirective
      exact hdirective.trans (leads_next _)

/-- Recursion into files ends because each is one more on the stack; the stages do the same work
without it. -/
theorem simulates (files : Files) (frames : List LoadFrame) : Simulates files frames := by
  generalize hstack : LoadFrame.stack frames = stack
  induction stack using files.stack_induction generalizing frames with
  | h stack ih =>
    subst hstack
    intro l path
    rw [Ledger.result_loadFile_eq, enter]
    by_cases hpath : path ∈ LoadFrame.stack frames
    · rw [if_pos hpath, Files.tokensOf_of_mem hpath]
      exact .refl _
    rw [if_neg hpath, Files.tokensOf_of_not_mem files hpath]
    cases hread : files.read path with
    | error reason => exact .refl _
    | ok text =>
      refine Leads.step ?_
      simp only [next]
      cases (Source.ofText text (some path)).tokens with
      | error error => exact .refl _
      | ok tokens =>
        -- however much of the file is left, its name is what the frame adds to the stack
        have hinside (left : List Token) : LoadFrame.stack (⟨some path, left⟩ :: frames) =
            LoadFrame.stack frames ++ [path] := by
          simp [LoadFrame.stack, List.reduceOption_cons_of_some]
        exact leads_loadTokens (hinside tokens)
          (fun left => ih path text hpath hread _ (hinside left)) l

end LoadStage

namespace Ledger

open LoadStage

theorem leads_ended {files : Files} {stage : LoadStage} {result : Except Failure Ledger}
    (h : Leads files stage (left [] result)) : Leads files stage (.ended result) := by
  refine h.trans (Leads.step ?_)
  cases result <;> exact .refl _

/-- A load comes to the end that recursion finds. -/
theorem leads_load (l : Ledger) (files : Files) (text : String) (source : Option String) :
    Leads files (l.opening files text source) (.ended (l.load files text source).result) := by
  refine leads_ended ?_
  unfold opening load
  cases files.nameOf source with
  | error error => exact .refl _
  | ok name =>
    refine Leads.step ?_
    simp only [next]
    cases (Source.ofText text name).tokens with
    | error error => exact .refl _
    | ok tokens =>
      have hstack : LoadFrame.stack [⟨name, tokens⟩] = name.toList := by
        cases name <;> rfl
      exact leads_loadTokens hstack (fun _ => simulates files _) l

theorem leads_loadPath (l : Ledger) (files : Files) (path : String) :
    Leads files (l.openingPath files path) (.ended (l.loadPath files path).result) :=
  leads_ended ((simulates files []).leads_enterTarget l _)

/-! ## Loads that are run stage by stage -/

theorem iterate_ended (files : Files) (result : Except Failure Ledger) (steps : Nat) :
    (next files)^[steps] (.ended result) = .ended result := by
  induction steps with
  | zero => rfl
  | succ steps ih => exact ih

/-- There is one end only. -/
theorem eq_of_leads_ended {files : Files} {stage : LoadStage} {result result' : Except Failure Ledger}
    (h : Leads files stage (.ended result))
    (h' : Leads files stage (.ended result')) : result = result' := by
  obtain ⟨steps, h⟩ := h
  obtain ⟨steps', h'⟩ := h'
  have hlater : (next files)^[steps + steps'] stage = .ended result' := by
    rw [Function.iterate_add_apply, h', iterate_ended]
  rw [Nat.add_comm, Function.iterate_add_apply, h, iterate_ended] at hlater
  exact ended.inj hlater

/-- A load is what its stages come to. -/
theorem result_load_of_stages {α : Type} (f : Except Failure Ledger → α) {l : Ledger}
    {files : Files} {text : String} {source : Option String} {a : α} (steps : Nat)
    (h : ((next files)^[steps] (l.opening files text source)).result?.map f = some a) :
    f (l.load files text source).result = a := by
  obtain ⟨result, hresult, rfl⟩ := Option.map_eq_some_iff.1 h
  have hended : (next files)^[steps] (l.opening files text source) = .ended result := by
    cases hstage : (next files)^[steps] (l.opening files text source) with
    | ended other =>
      rw [hstage] at hresult
      cases hresult
      rfl
    | _ =>
      rw [hstage] at hresult
      contradiction
  rw [eq_of_leads_ended (l.leads_load files text source) ⟨steps, hended⟩]

def errorOf? : Except Failure Ledger → Option LoadError
  | .ok _ => none
  | .error failure => some failure.error

theorem errorOf?_load {l : Ledger} {files : Files} {text : String} {source : Option String}
    {error : Option LoadError} (steps : Nat)
    (h : ((next files)^[steps] (l.opening files text source)).result?.map errorOf? = some error) :
    errorOf? (l.load files text source).result = error :=
  result_load_of_stages errorOf? steps h

def failureOf? : Except Failure Ledger → Option Failure
  | .ok _ => none
  | .error failure => some failure

theorem failureOf?_eq_some_iff {result : Except Failure Ledger} {failure : Failure} :
    failureOf? result = some failure ↔ result = .error failure := by
  cases result <;> simp [failureOf?]

end Ledger
end DoubleEntry
