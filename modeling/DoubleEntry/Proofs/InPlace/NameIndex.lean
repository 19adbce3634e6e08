import DoubleEntry.Collection.NameTable
import DoubleEntry.Proofs.Collection.KeyedList
import DoubleEntry.Proofs.InPlace.Programs

/-! Names as they are kept in memory: a list, and a map from each name back to its place, that are
changed one after the other. Both together are a table of names. -/
namespace DoubleEntry

structure NameIndex where
  names : List String
  places : KeyedList String Int
  deriving Repr

namespace NameIndex

def empty : NameIndex := ⟨[], .empty⟩

def place? (t : NameIndex) (name : String) : Option Int := t.places.get? name

def name? (t : NameIndex) (place : Int) : Option String :=
  if 0 ≤ place ∧ place < t.names.length then t.names[place.toNat]? else none

/-- The place of a name; a new name goes to the end of the list, and then into the map. -/
def intern {ε : Type} (name : String) : EStateM ε NameIndex Int := do
  match (← get).place? name with
  | some place => return place
  | none =>
    let place : Int := (← get).names.length
    modify fun t => { t with names := t.names ++ [name] }
    modify fun t => { t with places := t.places.insert name place }
    return place

end NameIndex

namespace NameTable

/-- The map from each name to its place, in the order of the places. -/
def places (t : NameTable) : KeyedList String Int :=
  ⟨t.names.zipIdx.map fun entry => (entry.1, (entry.2 : Int)), by
    rw [List.map_map]
    exact (List.zipIdx_map_fst 0 t.names).symm ▸ t.nodup⟩

def toIndex (t : NameTable) : NameIndex := ⟨t.names, t.places⟩

theorem keys_places (t : NameTable) : t.places.entries.map (·.1) = t.names := by
  unfold places
  rw [List.map_map]
  exact List.zipIdx_map_fst 0 t.names

/-- Looking a name up in the map is counting the names before it. -/
theorem find?_zipIdx (names : List String) (start : Nat) (name : String) :
    (((names.zipIdx start).map fun entry => (entry.1, (entry.2 : Int))).find?
      fun entry => entry.1 = name).map (·.2) =
    (names.idxOf? name).map fun place => ((place + start : Nat) : Int) := by
  induction names generalizing start with
  | nil => rfl
  | cons first names ih =>
    rw [List.zipIdx_cons, List.map_cons, List.idxOf?_cons]
    by_cases h : first = name
    · simp [h]
    · simp only [List.find?_cons, h, decide_false, beq_iff_eq, if_false, ih, Option.map_map]
      congr 1
      funext place
      simp only [Function.comp_apply]
      omega

@[simp] theorem place?_toIndex (t : NameTable) : t.toIndex.place? = t.index? := by
  funext name
  exact find?_zipIdx t.names 0 name

@[simp] theorem name?_toIndex (t : NameTable) : t.toIndex.name? = t.name? := by
  funext place
  change (if 0 ≤ place ∧ place < t.names.length then t.names[place.toNat]? else none) =
    if 0 ≤ place then t.names[place.toNat]? else none
  by_cases hpos : 0 ≤ place
  · by_cases hlt : place < t.names.length
    · rw [if_pos ⟨hpos, hlt⟩, if_pos hpos]
    · rw [if_neg (by omega), if_pos hpos, List.getElem?_eq_none (by omega)]
  · rw [if_neg (by omega), if_neg hpos]

theorem intern_of_index? {t : NameTable} {name : String} {place : Int}
    (h : t.index? name = some place) : t.intern name = (t, place) := by
  unfold intern
  split
  · rename_i place' h'
    rw [h] at h'
    cases h'
    rfl
  · rename_i h'
    rw [h] at h'
    contradiction

theorem intern_of_new {t : NameTable} {name : String} (h : t.index? name = none) :
    (t.intern name).1.toIndex =
        ⟨t.names ++ [name], t.places.insert name t.names.length⟩ ∧
      (t.intern name).2 = t.names.length := by
  have hnames : (t.intern name).1.names = t.names ++ [name] := by
    rw [names_intern, if_neg (index?_eq_none_iff.1 h)]
  have hplaces : (t.intern name).1.places = t.places.insert name t.names.length := by
    have hnew : name ∉ t.places.entries.map (·.1) := by
      rw [keys_places]
      exact index?_eq_none_iff.1 h
    apply KeyedList.eq_of_entries
    calc (t.intern name).1.places.entries
        = t.places.entries ++ [(name, (t.names.length : Int))] := by
          simp [places, hnames, List.zipIdx_append]
      _ = KeyedList.alterEntries name (fun _ => (t.names.length : Int)) t.places.entries :=
          (KeyedList.alterEntries_of_not_mem (fun _ => (t.names.length : Int)) hnew).symm
  refine ⟨by rw [toIndex, hnames, hplaces], ?_⟩
  unfold intern
  split
  · rename_i place h'
    rw [h] at h'
    contradiction
  · rfl

theorem run_intern {ε : Type} (t : NameTable) (name : String) :
    (NameIndex.intern name : EStateM ε NameIndex Int).run t.toIndex =
      .ok (t.intern name).2 (t.intern name).1.toIndex := by
  unfold NameIndex.intern
  cases h : t.index? name with
  | some place => simp [h, intern_of_index? h]
  | none =>
    obtain ⟨htable, hplace⟩ := intern_of_new h
    simp only [EStateM.run_bind, EStateM.run_get, place?_toIndex, h, EStateM.run_modify,
      EStateM.run_pure]
    rw [htable, hplace]
    rfl

theorem run_mapM_intern {ε : Type} (t : NameTable) (names : List String) :
    (names.mapM NameIndex.intern : EStateM ε NameIndex (List Int)).run t.toIndex =
      .ok (t.internAll names).2 (t.internAll names).1.toIndex := by
  induction names generalizing t with
  | nil => rfl
  | cons name names ih => simp [List.mapM_cons, run_intern, ih, internAll]

end NameTable
end DoubleEntry
