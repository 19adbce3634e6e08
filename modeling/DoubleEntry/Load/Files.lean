import DoubleEntry.Collection.KeyedList
import DoubleEntry.Path
import DoubleEntry.Text.Utf8

/-! The files that a load may read, as a finite map from absolute paths to contents, and the names
that they go by. -/
namespace DoubleEntry

/-- Bytes are read as UTF-8 with any spelling of line ends; text is taken as it is. -/
inductive FileContent where
  | text (content : String)
  | bytes (content : List UInt8)
  | unreadable (reason : String)
  deriving Repr

def FileContent.read : FileContent → Except String String
  | .text content => .ok content
  | .unreadable reason => .error reason
  | .bytes content =>
    match Text.decodeUtf8 content with
    | .ok cs => .ok (.ofList (Text.foldLineEnds cs))
    | .error fault => .error ("not UTF-8 text (" ++ fault.message ++ ")")

/-- Files by their absolute paths, and the directory that relative paths start from. -/
structure Files where
  directory : Directory
  contents : KeyedList String FileContent

namespace Files

/-- No files, with the root to start from. -/
def empty : Files := ⟨.root, .empty⟩

def insert (files : Files) (path : String) (content : FileContent) : Files :=
  { files with contents := files.contents.insert path content }

def keys (files : Files) : List String := files.contents.keys

def size (files : Files) : Nat := files.contents.size

/-- The text of a file, or the reason why there is none. -/
def read (files : Files) (path : String) : Except String String :=
  match files.contents.get? path with
  | none => .error "No such file or directory"
  | some content => content.read

/-- The absolute path that a file is known by. -/
def resolve (files : Files) (p : Path) : Except PathError String :=
  (files.directory.resolve p).map Path.text

/-- Two spellings of a file resolve to one text, and that to itself. -/
def IsResolved (files : Files) (path : String) : Prop := files.resolve (.ofText path) = .ok path

/-- The name of a text, which is the path of the file it is from; none if it is from nowhere. -/
def nameOf (files : Files) : Option String → Except PathError (Option String)
  | none => .ok none
  | some source => (files.resolve (.ofText source)).map some

/-- The file that an include directive asks for: its path is relative to the text that the directive
is in, or to the working directory if that text is from nowhere. -/
def includeTarget (files : Files) (source : Option String) (path : String) : Path :=
  let base := match source with
    | some file => (Path.ofText file).parent
    | none => files.directory.path
  base.join (.ofText path)

/-- The number of files that are not among the given paths. -/
def countOutside (files : Files) (paths : List String) : Nat :=
  files.keys.countP fun path => path ∉ paths

theorem mem_keys_of_read {files : Files} {path text : String} (h : files.read path = .ok text) :
    path ∈ files.keys := by
  unfold read at h
  split at h
  · contradiction
  · rename_i content found
    simp only [KeyedList.get?, Option.map_eq_some_iff] at found
    obtain ⟨entry, found, _⟩ := found
    have key : entry.1 = path := by simpa using List.find?_some found
    exact key ▸ List.mem_map_of_mem (List.mem_of_find?_eq_some found)

theorem countOutside_append_lt {files : Files} {path text : String} {paths : List String}
    (read : files.read path = .ok text) (outside : path ∉ paths) :
    files.countOutside (paths ++ [path]) < files.countOutside paths := by
  have mem := mem_keys_of_read read
  unfold countOutside
  generalize files.keys = keys at mem ⊢
  have le (keys : List String) :
      keys.countP (fun p => p ∉ paths ++ [path]) ≤ keys.countP (fun p => p ∉ paths) :=
    List.countP_mono_left fun p _ => by simp; intro h _; exact h
  induction keys with
  | nil => simp at mem
  | cons key keys ih =>
    by_cases here : key = path
    · subst here
      have := le keys
      simp [outside]
      simp at this
      omega
    · have ih := ih ((List.mem_cons.1 mem).resolve_left (Ne.symm here))
      by_cases inside : key ∈ paths
      · simpa [inside] using ih
      · simp only [List.countP_cons, List.mem_append, inside, List.mem_singleton, here] at ih ⊢
        simp at ih ⊢
        omega

end Files
end DoubleEntry
