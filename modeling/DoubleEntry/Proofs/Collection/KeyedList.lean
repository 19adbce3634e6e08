import DoubleEntry.Collection.KeyedList
import Mathlib.Data.List.Forall2

/-! Changes of keyed lists, and keyed lists that correspond entry by entry. -/
namespace DoubleEntry

namespace KeyedList

variable {κ ν μ : Type}

theorem eq_of_entries {m n : KeyedList κ ν} (h : m.entries = n.entries) : m = n := by
  cases m
  cases n
  cases h
  rfl

def mapValues (f : ν → μ) (m : KeyedList κ ν) : KeyedList κ μ :=
  ⟨m.entries.map fun entry => (entry.1, f entry.2), by
    rw [List.map_map]
    exact m.nodup⟩

variable [DecidableEq κ]

theorem get?_mapValues (f : ν → μ) (m : KeyedList κ ν) (key : κ) :
    (m.mapValues f).get? key = (m.get? key).map f := by
  unfold get? mapValues
  rw [List.find?_map, Option.map_map, Option.map_map]
  rfl

theorem alterEntries_of_not_mem {key : κ} (f : Option ν → ν) {entries : List (κ × ν)}
    (h : key ∉ entries.map (·.1)) : alterEntries key f entries = entries ++ [(key, f none)] := by
  induction entries with
  | nil => rfl
  | cons entry rest ih =>
    simp only [List.map_cons, List.mem_cons, not_or] at h
    rw [alterEntries, if_neg (Ne.symm h.1), ih h.2]
    rfl

theorem map_alterEntries (g : ν → μ) {key : κ} {f : Option ν → ν} {f' : Option μ → μ}
    (h : ∀ v, g (f v) = f' (v.map g)) (entries : List (κ × ν)) :
    (alterEntries key f entries).map (fun entry => (entry.1, g entry.2)) =
      alterEntries key f' (entries.map fun entry => (entry.1, g entry.2)) := by
  induction entries with
  | nil => simp [alterEntries, h]
  | cons entry rest ih =>
    by_cases hkey : entry.1 = key
    · simp [alterEntries, hkey, h]
    · simp [alterEntries, hkey, ih]

theorem mapValues_alter (g : ν → μ) {key : κ} {f : Option ν → ν} {f' : Option μ → μ}
    (h : ∀ v, g (f v) = f' (v.map g)) (m : KeyedList κ ν) :
    (m.alter key f).mapValues g = (m.mapValues g).alter key f' :=
  eq_of_entries (map_alterEntries g h m.entries)

theorem alterEntries_alterEntries (key : κ) (f g : Option ν → ν) (entries : List (κ × ν)) :
    alterEntries key g (alterEntries key f entries) =
      alterEntries key (fun value => g (some (f value))) entries := by
  induction entries with
  | nil => simp [alterEntries]
  | cons entry rest ih =>
    by_cases h : entry.1 = key
    · simp [alterEntries, h]
    · simp [alterEntries, h, ih]

theorem alter_alter (m : KeyedList κ ν) (key : κ) (f g : Option ν → ν) :
    (m.alter key f).alter key g = m.alter key fun value => g (some (f value)) :=
  eq_of_entries (alterEntries_alterEntries key f g m.entries)

theorem get?_eq_none_iff {m : KeyedList κ ν} {key : κ} : m.get? key = none ↔ key ∉ m.keys := by
  simp only [get?, keys, Option.map_eq_none_iff, List.find?_eq_none, List.mem_map,
    decide_eq_true_eq, not_exists, not_and]

theorem mem_keys_alter {m : KeyedList κ ν} {key key' : κ} {f : Option ν → ν} :
    key' ∈ (m.alter key f).keys ↔ key' ∈ m.keys ∨ key' = key := by
  unfold keys alter
  rw [keys_alterEntries]
  split
  · rename_i h
    constructor
    · exact .inl
    · rintro (hmem | rfl)
      · exact hmem
      · exact h
  · rw [List.mem_append, List.mem_singleton]

/-! ## Entries that correspond -/

section

variable {κ' ν' : Type} [DecidableEq κ'] {K : κ → κ' → Prop} {V : ν → ν' → Prop}
  {entries : List (κ × ν)} {entries' : List (κ' × ν')} {key : κ} {key' : κ'}

/-- A pair of entries with related keys and related values. -/
def Corresponds (K : κ → κ' → Prop) (V : ν → ν' → Prop) (entry : κ × ν) (entry' : κ' × ν') : Prop :=
  K entry.1 entry'.1 ∧ V entry.2 entry'.2

theorem rel_find? (h : List.Forall₂ (Corresponds K V) entries entries')
    (hkey : ∀ k k', K k k' → (k = key ↔ k' = key')) :
    Option.Rel (Corresponds K V) (entries.find? fun entry => entry.1 = key)
      (entries'.find? fun entry => entry.1 = key') := by
  induction h with
  | nil => exact .none
  | @cons entry entry' entries entries' hentry _ ih =>
    have hiff := hkey _ _ hentry.1
    by_cases hk : entry.1 = key
    · rw [List.find?_cons_of_pos (by simpa using hk),
        List.find?_cons_of_pos (by simpa using hiff.1 hk)]
      exact .some hentry
    · rw [List.find?_cons_of_neg (by simpa using hk),
        List.find?_cons_of_neg (by simpa using mt hiff.2 hk)]
      exact ih

theorem rel_get? {m : KeyedList κ ν} {m' : KeyedList κ' ν'}
    (h : List.Forall₂ (Corresponds K V) m.entries m'.entries)
    (hkey : ∀ k k', K k k' → (k = key ↔ k' = key')) :
    Option.Rel V (m.get? key) (m'.get? key') := by
  unfold get?
  generalize hfound : m.entries.find? (fun entry => entry.1 = key) = found
  generalize hfound' : m'.entries.find? (fun entry => entry.1 = key') = found'
  have hrel := rel_find? h hkey
  rw [hfound, hfound'] at hrel
  cases hrel with
  | none => exact .none
  | some hentry => exact .some hentry.2

theorem rel_alter {m : KeyedList κ ν} {m' : KeyedList κ' ν'} {f : Option ν → ν}
    {f' : Option ν' → ν'} (h : List.Forall₂ (Corresponds K V) m.entries m'.entries)
    (hkey : ∀ k k', K k k' → (k = key ↔ k' = key')) (hnew : K key key')
    (hvalue : ∀ v v', Option.Rel V v v' → V (f v) (f' v')) :
    List.Forall₂ (Corresponds K V) (m.alter key f).entries (m'.alter key' f').entries := by
  obtain ⟨entries, nodup⟩ := m
  obtain ⟨entries', nodup'⟩ := m'
  simp only [alter] at h ⊢
  clear nodup nodup'
  induction h with
  | nil => exact .cons ⟨hnew, hvalue _ _ .none⟩ .nil
  | @cons entry entry' entries entries' hentry htail ih =>
    have hiff := hkey _ _ hentry.1
    by_cases hk : entry.1 = key
    · rw [alterEntries, alterEntries, if_pos hk, if_pos (hiff.1 hk)]
      exact .cons ⟨hentry.1, hvalue _ _ (.some hentry.2)⟩ htail
    · rw [alterEntries, alterEntries, if_neg hk, if_neg (mt hiff.2 hk)]
      exact .cons hentry ih

end

end KeyedList
end DoubleEntry
