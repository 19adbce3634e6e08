import DoubleEntry.Proofs.Ledger.Applied

/-! Where in a run an entry was filed: every entry of a ledger was filed by a statement of the run
that led there. -/
namespace DoubleEntry.Ledger

variable {first middle last : Ledger} {statements : List Statement} {day : Date} {e : Entry}

/-- A run, and a statement on its way that files an entry. -/
structure Filing (first last : Ledger) (statements : List Statement) (day : Date)
    (e : Entry) where
  before : List Statement
  statement : Statement
  behind : List Statement
  middle : Ledger
  next : Ledger
  split : statements = before ++ statement :: behind
  applied_before : first.Applied before middle
  entry : middle.entryOf? statement = some (day, e)
  process : middle.process statement = .ok next
  applied_behind : next.Applied behind last

def Filing.setOption (f : Filing first last statements day e) (key value : String) :
    Filing first (last.setOption key value) statements day e :=
  { f with applied_behind := f.applied_behind.setOption key value }

/-- The same filing in a longer run. -/
def Filing.extend (f : Filing first middle statements day e) (statement : Statement)
    (h : middle.process statement = .ok last) :
    Filing first last (statements ++ [statement]) day e :=
  { f with
    behind := f.behind ++ [statement]
    split := by simp [f.split]
    applied_behind := f.applied_behind.process statement h }

/-- Every entry of the last ledger that was not in the first was filed on the way. -/
theorem Applied.exists_filing (h : first.Applied statements last) (hnot : (day, e) ∉ first.entries)
    (hmem : (day, e) ∈ last.entries) : Nonempty (Filing first last statements day e) := by
  induction h with
  | refl => contradiction
  | setOption key value _ ih =>
    obtain ⟨f⟩ := ih hmem
    exact ⟨f.setOption key value⟩
  | @process statements middle last statement hbefore hprocess ih =>
    -- the last statement filed the entry, unless it was there before
    by_cases hold : (day, e) ∈ middle.entries
    · obtain ⟨f⟩ := ih hold
      exact ⟨f.extend statement hprocess⟩
    · cases effect_of_process hprocess with
      | entry hentry =>
        rcases mem_entries_enter.1 hmem with hmem | ⟨rfl, rfl⟩
        · contradiction
        · exact ⟨⟨statements, statement, [], middle, _, rfl, hbefore, hentry, hprocess, .refl⟩⟩
      | _ => contradiction

end DoubleEntry.Ledger
