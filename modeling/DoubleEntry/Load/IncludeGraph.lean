import DoubleEntry.Load.Basic

/-! Which files a text leads to by its include directives. -/
namespace DoubleEntry

namespace Source

/-- The paths of the include directives among tokens, resolved against the file they are in. -/
def includesAmong (files : Files) (name : Option String) (tokens : List Token) : List String :=
  tokens.filterMap fun t =>
    match Directive.ofToken t with
    | .ok (.includeFile path) => (files.resolve (files.includeTarget name path)).toOption
    | _ => none

/-- The files a source includes; none where it cannot be read as a ledger. -/
def includes (s : Source) (files : Files) : List String :=
  match s.tokens with
  | .ok tokens => includesAmong files s.name tokens
  | .error _ => []

end Source

/-- A text to load, with the file it came from, beside the files it may include. -/
structure IncludeGraph where
  files : Files
  root : Source

namespace IncludeGraph

/-- The graph of a load; a text goes by the resolved path of its file. -/
def ofText (files : Files) (text : String) (name : Option String) : IncludeGraph :=
  ⟨files, .ofText text name⟩

/-- The source of a path: the root text under its own name, and files under theirs. -/
def sourceAt (g : IncludeGraph) (path : String) : Option Source :=
  if g.root.name = some path then some g.root
  else (g.files.read path).toOption.map (Source.ofText · (some path))

def Includes (g : IncludeGraph) (path target : String) : Prop :=
  ∃ source, g.sourceAt path = some source ∧ target ∈ source.includes g.files

/-- The path is the root's own, or some chain of includes leads from the root to it. -/
inductive Reaches (g : IncludeGraph) : String → Prop where
  | root {path : String} : g.root.name = some path → g.Reaches path
  | direct {path : String} : path ∈ g.root.includes g.files → g.Reaches path
  | step {path target : String} : g.Reaches path → g.Includes path target → g.Reaches target

/-- A chain of one or more includes leads from a path back to it. -/
def OnCycle (g : IncludeGraph) (path : String) : Prop := Relation.TransGen g.Includes path path

/-- Every file that the root leads to can be read as a ledger. -/
def Complete (g : IncludeGraph) : Prop :=
  ∀ path, g.Reaches path →
    ∃ source tokens, g.sourceAt path = some source ∧ source.tokens = .ok tokens

/-- A list of paths that has the root's includes and, for each path in it that can be read as a
ledger, the files it includes. -/
def isClosed (g : IncludeGraph) (paths : List String) : Bool :=
  (g.root.name.toList ++ g.root.includes g.files).all (· ∈ paths) &&
    paths.all fun path =>
      match g.sourceAt path with
      | none => false
      | some source => source.tokens.toOption.isSome && (source.includes g.files).all (· ∈ paths)

end IncludeGraph
end DoubleEntry
