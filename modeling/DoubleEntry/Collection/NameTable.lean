/-! Distinct names numbered in the order in which they came; a number never changes its meaning.
Indices are integers, of which those from zero up to the size name something. -/
namespace DoubleEntry

structure NameTable where
  names : List String
  nodup : names.Nodup
  deriving DecidableEq, Repr

namespace NameTable

def empty : NameTable := ⟨[], .nil⟩

def size (t : NameTable) : Nat := t.names.length

def index? (t : NameTable) (name : String) : Option Int := (t.names.idxOf? name).map Int.ofNat

def name? (t : NameTable) (index : Int) : Option String :=
  if 0 ≤ index then t.names[index.toNat]? else none

theorem index?_eq_none_iff {t : NameTable} {name : String} :
    t.index? name = none ↔ name ∉ t.names := by
  simp [index?]

theorem name?_of_index? {t : NameTable} {name : String} {index : Int}
    (h : t.index? name = some index) : t.name? index = some name := by
  simp only [index?, Option.map_eq_some_iff] at h
  obtain ⟨i, hi, rfl⟩ := h
  rw [List.idxOf?, List.findIdx?_eq_some_iff_getElem] at hi
  obtain ⟨bound, found, _⟩ := hi
  simp [name?, bound, by simpa using found]

theorem index?_of_name? {t : NameTable} {name : String} {index : Int}
    (h : t.name? index = some name) : t.index? name = some index := by
  unfold name? at h
  split at h
  · rename_i nonneg
    obtain ⟨bound, found⟩ := List.getElem?_eq_some_iff.1 h
    have first : t.names.idxOf? name = some index.toNat :=
      List.idxOf?_eq_some_iff.2 ⟨bound, found, fun j hj same =>
        Nat.ne_of_lt hj ((List.getElem_inj t.nodup).1 (same.trans found.symm))⟩
    rw [index?, first, Option.map_some, Int.ofNat_eq_natCast, Int.toNat_of_nonneg nonneg]
  · contradiction

theorem name?_eq_none_iff {t : NameTable} {index : Int} :
    t.name? index = none ↔ ¬ (0 ≤ index ∧ index < t.size) := by
  unfold name? size
  split
  · rw [List.getElem?_eq_none_iff]
    omega
  · rename_i hnegative
    exact iff_of_true rfl fun h => hnegative h.1

theorem exists_index?_iff {t : NameTable} {name : String} :
    (∃ index, t.index? name = some index) ↔ name ∈ t.names := by
  rw [← Option.isSome_iff_exists, Option.isSome_iff_ne_none, Ne, index?_eq_none_iff,
    Decidable.not_not]

/-- The index of a name, which is added at the end if it is new. -/
def intern (t : NameTable) (name : String) : NameTable × Int :=
  match h : t.index? name with
  | some index => (t, index)
  | none =>
    (⟨t.names ++ [name], List.nodup_append.2 ⟨t.nodup, by simp, by
      rintro a ha b hb rfl
      exact index?_eq_none_iff.1 h (List.mem_singleton.1 hb ▸ ha)⟩⟩, t.size)

theorem names_intern (t : NameTable) (name : String) :
    (t.intern name).1.names = if name ∈ t.names then t.names else t.names ++ [name] := by
  unfold intern
  split
  · rename_i index h
    have known : name ∈ t.names := Decidable.byContradiction fun absent => by
      rw [index?_eq_none_iff.2 absent] at h
      contradiction
    simp [known]
  · rename_i h
    simp [index?_eq_none_iff.1 h]

/-- Interns the names from left to right. -/
def internAll (t : NameTable) : List String → NameTable × List Int
  | [] => (t, [])
  | name :: names =>
    let (t, index) := t.intern name
    let (t, indices) := t.internAll names
    (t, index :: indices)

theorem name?_intern (t : NameTable) (name : String) :
    (t.intern name).1.name? (t.intern name).2 = some name := by
  unfold intern
  split
  · exact name?_of_index? (by assumption)
  · simp [name?, size]

end NameTable
end DoubleEntry
