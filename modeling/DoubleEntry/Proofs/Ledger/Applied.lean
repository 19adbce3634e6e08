import DoubleEntry.Proofs.InPlace.Requests
import DoubleEntry.Proofs.Ledger.Filed

/-! Runs of a ledger as the statements in them that took effect, and the names that these bring
in. -/
namespace DoubleEntry

namespace Statement

/-- The segments that a statement brings in if it succeeds. -/
def segments : Statement → List String
  | .openAccount _ account => account.segments
  | _ => []

/-- The currency codes that a statement brings in if it succeeds. -/
def codes : Statement → List String
  | .unit code => [code]
  | _ => []

end Statement

/-! ## Runs of statements that succeed -/

/-- Statements that succeed one after another, with settings in between. -/
inductive Ledger.Applied (l : Ledger) : List Statement → Ledger → Prop where
  | refl : Applied l [] l
  | setOption {statements : List Statement} {middle : Ledger} (key value : String) :
      Applied l statements middle → Applied l statements (middle.setOption key value)
  | process {statements : List Statement} {middle after : Ledger} (statement : Statement) :
      Applied l statements middle → middle.process statement = .ok after →
        Applied l (statements ++ [statement]) after

namespace Ledger.Applied

variable {l middle after : Ledger} {statements statements' : List Statement}

theorem trans (h : l.Applied statements middle) (h' : middle.Applied statements' after) :
    l.Applied (statements ++ statements') after := by
  induction h' with
  | refl => rwa [List.append_nil]
  | setOption key value _ ih => exact ih.setOption key value
  | process statement _ hprocess ih =>
    rw [← List.append_assoc]
    exact ih.process statement hprocess

end Ledger.Applied

def Action.statement? : Action → Option Statement
  | .apply statement => some statement
  | _ => none

/-- The statements of a request that take effect: none where it fails. -/
def LedgerRequest.applied (l : Ledger) : LedgerRequest → List Statement
  | .setOption .. | .copy => []
  | .process statement => if (l.process statement).toOption.isSome then [statement] else []
  | request =>
    if (l.follow request.steps).toOption.isSome then
      request.steps.filterMap (·.action.statement?)
    else []

/-- The statements of a run that take effect. -/
def Ledger.appliedAll (l : Ledger) : List LedgerRequest → List Statement
  | [] => []
  | request :: rest => request.applied l ++ (l.serve request).appliedAll rest

namespace Ledger

variable {l after : Ledger}

theorem applied_follow {steps : List Step} (h : l.follow steps = .ok after) :
    l.Applied (steps.filterMap (·.action.statement?)) after := by
  induction steps generalizing l with
  | nil =>
    cases h
    exact .refl
  | cons step rest ih =>
    obtain ⟨action, stack, trail⟩ := step
    rw [follow] at h
    cases action with
    | setOption key value => exact (Applied.refl.setOption key value).trans (ih h)
    | enter target => exact ih h
    | stop error => contradiction
    | apply statement =>
      cases hprocess : l.process statement with
      | error error =>
        simp [perform, hprocess, Except.mapError] at h
      | ok middle =>
        simp only [perform, hprocess, Except.mapError] at h
        exact (Applied.refl.process statement hprocess).trans (ih h)

theorem applied_serve (l : Ledger) (request : LedgerRequest) :
    l.Applied (request.applied l) (l.serve request) := by
  have hload (steps : List Step) :
      l.Applied (if (l.follow steps).toOption.isSome then
        steps.filterMap (·.action.statement?) else []) ((l.follow steps).toOption.getD l) := by
    cases h : l.follow steps with
    | error failure => exact .refl
    | ok after => exact applied_follow h
  cases request with
  | setOption key value => exact Applied.refl.setOption key value
  | copy =>
    rw [serve, clone_eq]
    exact .refl
  | process statement =>
    simp only [LedgerRequest.applied, serve, attempt]
    cases h : l.process statement with
    | error error => exact .refl
    | ok after => exact Applied.refl.process statement h
  | load files text source =>
    rw [serve, clone_eq, result_load]
    exact hload _
  | loadPath files path =>
    rw [serve, clone_eq, result_loadPath]
    exact hload _

theorem applied_serveAll (l : Ledger) (requests : List LedgerRequest) :
    l.Applied (l.appliedAll requests) (l.serveAll requests) := by
  induction requests generalizing l with
  | nil => exact .refl
  | cons request rest ih => exact (l.applied_serve request).trans (ih (l.serve request))

/-! ## What successful statements preserve -/

theorem prefix_of_effect {statement : Statement} (h : l.Effect statement after) :
    l.accounts.segments.names <+: after.accounts.segments.names ∧
      l.currencies.codes.names <+: after.currencies.codes.names := by
  cases h with
  | unit code => exact ⟨List.prefix_rfl, NameTable.prefix_intern _ code⟩
  | openAccount day account => exact ⟨l.accounts.prefix_openAt account day, List.prefix_rfl⟩
  | closeAccount day account hclose =>
    obtain ⟨windows, rfl⟩ := AccountRegistry.closeAt_eq_ok hclose
    exact ⟨List.prefix_rfl, List.prefix_rfl⟩
  | entry hentry => exact ⟨List.prefix_rfl, List.prefix_rfl⟩

/-- The names of a ledger are those of the statements that brought them in, in the order in which
they first came. -/
def NamedAfter (l : Ledger) (statements : List Statement) : Prop :=
  l.accounts.segments.names = (statements.flatMap Statement.segments).eraseDups ∧
    l.currencies.codes.names = (statements.flatMap Statement.codes).eraseDups

theorem names_of_entryOf? {statement : Statement} {entry : Date × Entry}
    (h : l.entryOf? statement = some entry) : statement.segments = [] ∧ statement.codes = [] := by
  obtain ⟨day, e⟩ := entry
  cases entryOf?_eq_some_iff.1 h <;> exact ⟨rfl, rfl⟩

theorem NamedAfter.effect {statements : List Statement} {statement : Statement}
    (h : l.NamedAfter statements) (heffect : l.Effect statement after) :
    after.NamedAfter (statements ++ [statement]) := by
  unfold NamedAfter
  rw [List.flatMap_append, List.flatMap_append, List.flatMap_singleton, List.flatMap_singleton]
  cases heffect with
  | unit code =>
    exact ⟨by simpa [Statement.segments] using h.1, NameTable.names_intern_of_eraseDups h.2 code⟩
  | openAccount day account =>
    exact ⟨NameTable.names_internAll_of_eraseDups h.1 account.segments,
      by simpa [Statement.codes] using h.2⟩
  | closeAccount day account hclose =>
    obtain ⟨windows, rfl⟩ := AccountRegistry.closeAt_eq_ok hclose
    exact ⟨by simpa [Statement.segments] using h.1, by simpa [Statement.codes] using h.2⟩
  | entry hentry =>
    obtain ⟨hsegments, hcodes⟩ := names_of_entryOf? hentry
    rw [hsegments, hcodes, List.append_nil, List.append_nil]
    exact h

theorem Effect.mem_entries {statement : Statement} {day : Date} {e : Entry}
    (h : l.Effect statement after) (hmem : (day, e) ∈ l.entries) : (day, e) ∈ after.entries := by
  cases h with
  | entry hentry => exact mem_entries_enter.2 (.inl hmem)
  | _ => exact hmem

/-- What settings and successful statements preserve, a run of them preserves. -/
theorem Applied.preserves {P : List Statement → Ledger → Prop} {seen statements : List Statement}
    (hoption : ∀ {statements middle} (key value), P statements middle →
      P statements (middle.setOption key value))
    (heffect : ∀ {statements statement middle after}, P statements middle →
      middle.Effect statement after → P (statements ++ [statement]) after)
    (h : l.Applied statements after) (hl : P seen l) : P (seen ++ statements) after := by
  induction h with
  | refl => rwa [List.append_nil]
  | setOption key value _ ih => exact hoption key value ih
  | process statement _ hprocess ih =>
    rw [← List.append_assoc]
    exact heffect ih (effect_of_process hprocess)

section

variable {statements : List Statement}

theorem Applied.grows (h : l.Applied statements after) :
    l.accounts.segments.names <+: after.accounts.segments.names ∧
      l.currencies.codes.names <+: after.currencies.codes.names :=
  @Applied.preserves l after
    (fun _ middle => l.accounts.segments.names <+: middle.accounts.segments.names ∧
      l.currencies.codes.names <+: middle.currencies.codes.names) [] statements
    (fun _ _ hmiddle => hmiddle)
    (fun hmiddle heffect =>
      ⟨hmiddle.1.trans (prefix_of_effect heffect).1, hmiddle.2.trans (prefix_of_effect heffect).2⟩)
    h ⟨List.prefix_rfl, List.prefix_rfl⟩

theorem Applied.mem_entries {day : Date} {e : Entry} (h : l.Applied statements after)
    (hmem : (day, e) ∈ l.entries) : (day, e) ∈ after.entries :=
  @Applied.preserves l after (fun _ middle => (day, e) ∈ middle.entries) [] statements
    (fun _ _ hmiddle => hmiddle) (fun hmiddle heffect => heffect.mem_entries hmiddle) h hmem

theorem Applied.namedAfter {seen : List Statement} (h : l.Applied statements after)
    (hl : l.NamedAfter seen) : after.NamedAfter (seen ++ statements) :=
  @Applied.preserves l after (fun statements middle => middle.NamedAfter statements) seen statements
    (fun _ _ hmiddle => hmiddle) (fun hmiddle heffect => hmiddle.effect heffect) h hl

end

end Ledger
end DoubleEntry
