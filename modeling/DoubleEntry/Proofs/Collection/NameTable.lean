import DoubleEntry.Collection.NameTable

/-! Growing tables of names: what was numbered once keeps its number. -/
namespace DoubleEntry.NameTable

variable {t t' : NameTable} {name : String} {index : Int}

theorem name?_of_grown (h : t.names <+: t'.names) (hname : t.name? index = some name) :
    t'.name? index = some name := by
  unfold name? at hname ⊢
  split at hname
  · rename_i hpos
    obtain ⟨hlt, rfl⟩ := List.getElem?_eq_some_iff.1 hname
    rw [if_pos hpos]
    exact List.prefix_iff_getElem?.1 h index.toNat hlt
  · contradiction

theorem index?_of_grown (h : t.names <+: t'.names) (hindex : t.index? name = some index) :
    t'.index? name = some index :=
  index?_of_name? (name?_of_grown h (name?_of_index? hindex))

theorem prefix_intern (t : NameTable) (name : String) : t.names <+: (t.intern name).1.names := by
  rw [names_intern]
  split
  · exact List.prefix_rfl
  · exact List.prefix_append t.names [name]

theorem prefix_internAll (t : NameTable) (names : List String) :
    t.names <+: (t.internAll names).1.names := by
  induction names generalizing t with
  | nil => exact List.prefix_rfl
  | cons name names ih => exact (t.prefix_intern name).trans (ih (t.intern name).1)

theorem mapM_index?_internAll (t : NameTable) (names : List String) :
    names.mapM (t.internAll names).1.index? = some (t.internAll names).2 := by
  induction names generalizing t with
  | nil => rfl
  | cons name names ih =>
    have hname : (t.internAll (name :: names)).1.index? name = some (t.intern name).2 :=
      index?_of_grown (prefix_internAll (t.intern name).1 names)
        (index?_of_name? (t.name?_intern name))
    rw [List.mapM_cons, hname]
    simp only [internAll, ih]
    rfl

/-! ## The order of the names -/

theorem names_intern_of_eraseDups {seen : List String} (h : t.names = seen.eraseDups)
    (name : String) : (t.intern name).1.names = (seen ++ [name]).eraseDups := by
  rw [names_intern, h, List.eraseDups_append]
  by_cases hseen : name ∈ seen
  · rw [if_pos (List.mem_eraseDups.2 hseen)]
    simp [List.removeAll, hseen]
  · have hsingle : [name].eraseDups = [name] := List.eraseDups_cons
    rw [if_neg (mt List.mem_eraseDups.1 hseen)]
    simp [List.removeAll, hseen, hsingle]

theorem names_internAll_of_eraseDups {seen : List String} (h : t.names = seen.eraseDups)
    (names : List String) : (t.internAll names).1.names = (seen ++ names).eraseDups := by
  induction names generalizing t seen with
  | nil => simpa [internAll] using h
  | cons name names ih =>
    rw [internAll]
    simpa using ih (names_intern_of_eraseDups h name)

end DoubleEntry.NameTable
