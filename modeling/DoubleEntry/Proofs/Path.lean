import DoubleEntry.Load.Basic
import DoubleEntry.Proofs.Collection.Traversal

/-! Resolved paths are their own spelling. Two spellings of a file therefore come to one text, and
only they do. A path leads to a file unless there is a NUL in it; those of include directives do. -/
namespace DoubleEntry

namespace Path

theorem isRead_ofText (text : String) : (ofText text).IsRead := by
  intro part hpart
  obtain ⟨hmem, hkept⟩ := List.mem_filter.1 hpart
  obtain ⟨piece, hpiece, rfl⟩ := List.mem_map.1 hmem
  have hfree := Text.separator_not_mem_splitWhere (p := (· == '/')) text.toList piece hpiece
  refine ⟨?_, by simpa using hkept⟩
  rw [String.toList_ofList]
  intro hslash
  simpa using hfree '/' hslash

theorem IsRead.parent {p : Path} (h : p.IsRead) : p.parent.IsRead :=
  fun part hpart => h part (List.dropLast_subset _ hpart)

theorem mem_parts_join {base p : Path} {part : String} (h : part ∈ (base.join p).parts) :
    part ∈ base.parts ∨ part ∈ p.parts := by
  unfold Path.join at h
  split at h
  · exact List.mem_append.1 h
  · exact .inr h

theorem IsRead.join {base p : Path} (hbase : base.IsRead) (h : p.IsRead) :
    (base.join p).IsRead := fun part hpart => (mem_parts_join hpart).elim (hbase part) (h part)

theorem IsRead.resolve {p q : Path} (h : p.IsRead) (hresolve : p.resolve = .ok q) : q.IsRead := by
  obtain ⟨_, rfl⟩ := resolve_eq_ok_iff.1 hresolve
  exact fun part hpart => h part ((mem_of_mem_foldl_step hpart).resolve_left List.not_mem_nil)

/-! ## NUL -/

/-- A NUL is in no separator and in no part that is left out. -/
theorem hasNul_ofText_iff {text : String} : (ofText text).HasNul ↔ '\x00' ∈ text.toList := by
  rw [← Text.mem_splitWhere_iff (p := (· == '/')) (by decide)]
  constructor
  · rintro ⟨part, hpart, hnul⟩
    obtain ⟨piece, hpiece, rfl⟩ := List.mem_map.1 (List.mem_filter.1 hpart).1
    exact ⟨piece, hpiece, by simpa using hnul⟩
  · rintro ⟨piece, hpiece, hnul⟩
    refine ⟨.ofList piece, List.mem_filter.2 ⟨List.mem_map_of_mem hpiece, ?_⟩, by simpa using hnul⟩
    have hne {part : String} (hfree : '\x00' ∉ part.toList) : .ofList piece ≠ part := by
      rintro rfl
      exact hfree (by simpa using hnul)
    exact decide_eq_true ⟨hne (by decide), hne (by decide)⟩

theorem not_hasNul_parent {p : Path} (h : ¬ p.HasNul) : ¬ p.parent.HasNul := by
  rintro ⟨part, hpart, hnul⟩
  exact h ⟨part, List.dropLast_subset _ hpart, hnul⟩

theorem not_hasNul_join {base p : Path} (hbase : ¬ base.HasNul) (h : ¬ p.HasNul) :
    ¬ (base.join p).HasNul := by
  rintro ⟨part, hpart, hnul⟩
  rcases mem_parts_join hpart with hpart | hpart
  · exact hbase ⟨part, hpart, hnul⟩
  · exact h ⟨part, hpart, hnul⟩

theorem HasNul.join {p : Path} (h : p.HasNul) (base : Path) : (base.join p).HasNul := by
  unfold Path.join
  split
  · obtain ⟨part, hpart, hnul⟩ := h
    exact ⟨part, List.mem_append_right _ hpart, hnul⟩
  · exact h

/-! ## Written and read -/

theorem parts_ofText_joinWith {parts : List String} (h : ∀ part ∈ parts, IsPart part) :
    (ofText (.ofList ('/' :: Text.joinWith '/' (parts.map String.toList)))).parts = parts := by
  have hsplit (cs : List Char) : Text.splitAt '/' ('/' :: cs) =
      ([], (Text.splitAt '/' cs).1 :: (Text.splitAt '/' cs).2) := by
    simp [Text.splitAt, Text.splitWhere]
  simp only [ofText, String.toList_ofList, hsplit]
  cases parts with
  | nil => rfl
  | cons first others =>
    have hfree : ∀ cs ∈ first.toList :: others.map String.toList, '/' ∉ cs := by
      rw [← List.map_cons]
      intro cs hcs
      obtain ⟨part, hpart, rfl⟩ := List.mem_map.1 hcs
      exact (h part hpart).1
    have hsame : (first :: others).map (String.ofList ∘ String.toList) = first :: others := by
      simp [Function.comp_def]
    have hpieces : Text.splitAt '/' (Text.joinWith '/' ((first :: others).map String.toList)) =
        (first.toList, others.map String.toList) := Text.splitAt_joinWith hfree
    rw [hpieces, List.map_cons, List.filter_cons_of_neg (by simp)]
    simp only [← List.map_cons, List.map_map, hsame]
    rw [List.filter_eq_self]
    intro part hpart
    simpa using (h part hpart).2

theorem ofText_text {p : Path} (hslashes : p.slashes = 1) (h : p.IsRead) : ofText p.text = p := by
  obtain ⟨slashes, parts⟩ := p
  cases hslashes
  have htext : text ⟨1, parts⟩ = .ofList ('/' :: Text.joinWith '/' (parts.map String.toList)) := by
    rw [← String.toList_inj]
    simp [text, Text.joinWith, String.toList_intercalate]
  have hparts : (ofText (text ⟨1, parts⟩)).parts = parts := by
    rw [htext]
    exact parts_ofText_joinWith h
  have hleading : ((Text.joinWith '/' (parts.map String.toList)).takeWhile (· == '/')) = [] := by
    cases parts with
    | nil => rfl
    | cons first others =>
      obtain ⟨hslash, hne, _⟩ := h first (by simp)
      obtain ⟨c, cs, hcs⟩ : ∃ c cs, first.toList = c :: cs :=
        List.exists_cons_of_ne_nil fun hnil => hne (String.toList_eq_nil_iff.1 hnil)
      have hc : c ≠ '/' := fun heq => hslash (by simp [hcs, heq])
      cases others <;> simp [Text.joinWith, hcs, hc]
  have hslashes : (ofText (text ⟨1, parts⟩)).slashes = 1 := by
    rw [htext]
    simp [ofText, hleading]
  generalize ofText (text ⟨1, parts⟩) = p at hslashes hparts
  cases p
  cases hslashes
  cases hparts
  rfl

end Path

namespace Files

variable {files : Files}

theorem resolve_eq_ok_iff {p : Path} {path : String} :
    files.resolve p = .ok path ↔ ∃ q, files.directory.resolve p = .ok q ∧ q.text = path :=
  map_eq_ok_iff

/-- A path with a NUL in it is no path of a file, and there are no others. -/
theorem resolve_eq_error_iff {p : Path} {error : PathError} :
    files.resolve p = .error error ↔ p.HasNul := by
  have hdirectory := (Path.resolve_eq_ok_iff.1 files.directory.resolve_path).1
  cases error
  unfold resolve Directory.resolve Path.resolve
  split
  · rename_i hjoin
    exact iff_of_true rfl (Classical.not_not.1 fun h => Path.not_hasNul_join hdirectory h hjoin)
  · rename_i hjoin
    exact iff_of_false (by simp [Except.map]) fun h => hjoin (h.join _)

theorem exists_resolve_of_not_hasNul {p : Path} (h : ¬ p.HasNul) :
    ∃ path, files.resolve p = .ok path := by
  cases hresolve : files.resolve p with
  | error error => exact absurd (resolve_eq_error_iff.1 hresolve) h
  | ok path => exact ⟨path, rfl⟩

/-- What a path resolves to resolves to itself. -/
theorem isResolved_of_resolve {p : Path} (h : p.IsRead) {path : String}
    (hresolve : files.resolve p = .ok path) : files.IsResolved path := by
  obtain ⟨q, hq, rfl⟩ := resolve_eq_ok_iff.1 hresolve
  have hread : q.IsRead := (files.directory.isRead.join h).resolve hq
  obtain ⟨_, heq⟩ := Path.resolve_eq_ok_iff.1 hq
  have habsolute : q.slashes = 1 := by rw [heq]
  have hjoin : files.directory.path.join q = q := if_neg (by omega)
  refine resolve_eq_ok_iff.2 ⟨q, ?_, rfl⟩
  rw [Path.ofText_text habsolute hread, Directory.resolve, hjoin]
  exact Path.resolve_resolve hq

/-- For a text from a file, whose path is what it goes by. -/
theorem IsResolved.forall_mem_some {path : String} (h : files.IsResolved path) :
    ∀ file ∈ some path, files.IsResolved file := by
  rintro _ ⟨⟩
  exact h

theorem IsResolved.not_hasNul {path : String} (h : files.IsResolved path) :
    ¬ (Path.ofText path).HasNul := by
  intro hnul
  have herror : files.resolve (.ofText path) = .error .embeddedNul := resolve_eq_error_iff.2 hnul
  rw [IsResolved, herror] at h
  contradiction

/-! ## Names of texts -/

theorem isResolved_of_nameOf {source name : Option String} (h : files.nameOf source = .ok name) :
    ∀ path ∈ name, files.IsResolved path := by
  cases source with
  | none =>
    cases h
    simp
  | some file =>
    obtain ⟨path, hpath, rfl⟩ := map_eq_ok_iff.1 h
    exact (isResolved_of_resolve (Path.isRead_ofText file) hpath).forall_mem_some

theorem nameOf_of_resolve {file path : String} (h : files.resolve (.ofText file) = .ok path) :
    files.nameOf (some file) = .ok (some path) := by
  rw [nameOf, h]
  rfl

theorem nameOf_eq_error_iff {source : Option String} {error : PathError} :
    files.nameOf source = .error error ↔ ∃ file, source = some file ∧ '\x00' ∈ file.toList := by
  cases source with
  | none => simp [nameOf]
  | some file =>
    have hresolve : files.resolve (.ofText file) = .error error ↔ '\x00' ∈ file.toList :=
      resolve_eq_error_iff.trans Path.hasNul_ofText_iff
    rw [nameOf]
    cases h : files.resolve (.ofText file) <;> simp_all [Except.map]

/-! ## Includes -/

theorem isRead_includeTarget (files : Files) (source : Option String) (path : String) :
    (files.includeTarget source path).IsRead := by
  cases source with
  | none => exact files.directory.isRead.join (Path.isRead_ofText path)
  | some file => exact (Path.isRead_ofText file).parent.join (Path.isRead_ofText path)

theorem exists_resolve_includeTarget {source : Option String}
    (hsource : ∀ file ∈ source, files.IsResolved file) {path : String}
    (hpath : '\x00' ∉ path.toList) :
    ∃ target, files.resolve (files.includeTarget source path) = .ok target := by
  rw [← Path.hasNul_ofText_iff] at hpath
  apply exists_resolve_of_not_hasNul
  cases source with
  | none =>
    exact Path.not_hasNul_join (Path.resolve_eq_ok_iff.1 files.directory.resolve_path).1 hpath
  | some file =>
    exact Path.not_hasNul_join (Path.not_hasNul_parent (hsource file rfl).not_hasNul) hpath

/-- A text from nowhere includes from the working directory. -/
example :
    let files : Files := ⟨⟨⟨1, ["srv", "books"]⟩, by decide, rfl⟩, .empty⟩
    files.resolve (files.includeTarget none "../units") = .ok "/srv/units" := by
  decide +kernel

end Files
end DoubleEntry
