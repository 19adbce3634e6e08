import DoubleEntry.Text.Lines

/-! File paths as text alone: joining, parents and lexical resolution from the root. No directory is
a link to another one. -/
namespace DoubleEntry

/-- A relative path has no leading slash, an absolute one has one, or exactly two where the text
was written so. -/
structure Path where
  slashes : Nat
  parts : List String
  deriving DecidableEq, Repr

/-- Why no file can be at a path. -/
inductive PathError where
  | embeddedNul
  deriving DecidableEq, Repr

def PathError.message : PathError → String
  | .embeddedNul => "embedded null byte"

namespace Path

def ofText (text : String) : Path :=
  let leading := (text.toList.takeWhile (· == '/')).length
  let (first, others) := Text.splitAt '/' text.toList
  { slashes := if leading ≤ 2 then leading else 1
    parts := ((first :: others).map String.ofList).filter fun part => part ≠ "" ∧ part ≠ "." }

def text (p : Path) : String :=
  if p.slashes = 0 ∧ p.parts = [] then "."
  else .ofList (List.replicate p.slashes '/') ++ "/".intercalate p.parts

/-- An absolute second path replaces the first. -/
def join (base p : Path) : Path :=
  if p.slashes = 0 then { base with parts := base.parts ++ p.parts } else p

def parent (p : Path) : Path := { p with parts := p.parts.dropLast }

/-- Stands between slashes, and is not left out when a path is read. -/
def IsPart (part : String) : Prop := '/' ∉ part.toList ∧ part ≠ "" ∧ part ≠ "."

def IsRead (p : Path) : Prop := ∀ part ∈ p.parts, IsPart part

instance (part : String) : Decidable (IsPart part) :=
  inferInstanceAs (Decidable ('/' ∉ part.toList ∧ part ≠ "" ∧ part ≠ "."))

instance (p : Path) : Decidable p.IsRead :=
  inferInstanceAs (Decidable (∀ part ∈ p.parts, IsPart part))

def HasNul (p : Path) : Prop := ∃ part ∈ p.parts, '\x00' ∈ part.toList

instance (p : Path) : Decidable p.HasNul :=
  inferInstanceAs (Decidable (∃ part ∈ p.parts, '\x00' ∈ part.toList))

/-- One step down from `parts`, where `..` is one step up and the root is above itself. -/
def step (parts : List String) (part : String) : List String :=
  if part = ".." then parts.dropLast else parts ++ [part]

/-- The path from the root without `..`. Every part of it is looked up on the way, so a NUL is in
the way also where a `..` follows. -/
def resolve (p : Path) : Except PathError Path :=
  if p.HasNul then .error .embeddedNul
  else .ok { slashes := 1, parts := p.parts.foldl step [] }

theorem resolve_eq_ok_iff {p q : Path} :
    p.resolve = .ok q ↔ ¬ p.HasNul ∧ q = { slashes := 1, parts := p.parts.foldl step [] } := by
  unfold resolve
  split <;> simp_all [eq_comm]

theorem mem_of_mem_foldl_step {part : String} {parts done : List String}
    (h : part ∈ parts.foldl step done) : part ∈ done ∨ part ∈ parts := by
  induction parts generalizing done with
  | nil => exact .inl h
  | cons first parts ih =>
    rcases ih h with hpart | hpart
    · unfold step at hpart
      split at hpart
      · exact .inl (List.dropLast_subset _ hpart)
      · rcases List.mem_append.1 hpart with hpart | hpart
        · exact .inl hpart
        · exact .inr (by simp [List.mem_singleton.1 hpart])
    · exact .inr (by simp [hpart])

theorem dotdot_not_mem_foldl_step {parts done : List String} (h : ".." ∉ done) :
    ".." ∉ parts.foldl step done := by
  induction parts generalizing done with
  | nil => exact h
  | cons part parts ih =>
    refine ih ?_
    unfold step
    split
    · exact fun mem => h (List.dropLast_subset _ mem)
    · simp_all [eq_comm]

theorem foldl_step_of_dotdot_not_mem (parts done : List String) (h : ".." ∉ parts) :
    parts.foldl step done = done ++ parts := by
  induction parts generalizing done with
  | nil => simp
  | cons part parts ih =>
    simp only [List.mem_cons, not_or] at h
    simp [step, Ne.symm h.1, ih _ h.2]

theorem resolve_resolve {p q : Path} (h : p.resolve = .ok q) : q.resolve = .ok q := by
  obtain ⟨hnul, rfl⟩ := resolve_eq_ok_iff.1 h
  have hparts : (p.parts.foldl step []).foldl step [] = p.parts.foldl step [] :=
    foldl_step_of_dotdot_not_mem _ [] (dotdot_not_mem_foldl_step List.not_mem_nil)
  refine resolve_eq_ok_iff.2 ⟨?_, by rw [hparts]⟩
  rintro ⟨part, hpart, hmem⟩
  exact hnul ⟨part, (mem_of_mem_foldl_step hpart).resolve_left List.not_mem_nil, hmem⟩

end Path

/-- A directory that relative paths can start from: where it is is known from the root. -/
structure Directory where
  path : Path
  isRead : path.IsRead
  resolve_path : path.resolve = .ok path

namespace Directory

def root : Directory := ⟨⟨1, []⟩, by decide, rfl⟩

/-- The file that a path leads to from the directory. -/
def resolve (d : Directory) (p : Path) : Except PathError Path := (d.path.join p).resolve

end Directory
end DoubleEntry
