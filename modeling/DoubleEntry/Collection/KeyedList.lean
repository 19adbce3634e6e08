/-! Values by key, in the order in which the keys first came. -/
namespace DoubleEntry

structure KeyedList (κ ν : Type) where
  entries : List (κ × ν)
  nodup : (entries.map (·.1)).Nodup
  deriving Repr

namespace KeyedList

variable {κ ν : Type} [DecidableEq κ]

def empty : KeyedList κ ν := ⟨[], .nil⟩

def get? (m : KeyedList κ ν) (key : κ) : Option ν :=
  (m.entries.find? fun entry => entry.1 = key).map (·.2)

def keys (m : KeyedList κ ν) : List κ := m.entries.map (·.1)

def size (m : KeyedList κ ν) : Nat := m.entries.length

/-- Replaces the value of a key where it stands; a new key goes to the end. -/
def alterEntries (key : κ) (f : Option ν → ν) : List (κ × ν) → List (κ × ν)
  | [] => [(key, f none)]
  | (k, v) :: rest => if k = key then (k, f (some v)) :: rest else (k, v) :: alterEntries key f rest

theorem keys_alterEntries (key : κ) (f : Option ν → ν) (entries : List (κ × ν)) :
    (alterEntries key f entries).map (·.1) =
      if key ∈ entries.map (·.1) then entries.map (·.1) else entries.map (·.1) ++ [key] := by
  induction entries with
  | nil => simp [alterEntries]
  | cons entry rest ih =>
    by_cases h : entry.1 = key
    · simp [alterEntries, h]
    · have h' : ¬ key = entry.1 := fun e => h e.symm
      simp only [alterEntries, h, if_false, List.map_cons, ih, List.mem_cons, h', false_or]
      split <;> simp

theorem nodup_keys_alterEntries {key : κ} {f : Option ν → ν} {entries : List (κ × ν)}
    (h : (entries.map (·.1)).Nodup) : ((alterEntries key f entries).map (·.1)).Nodup := by
  rw [keys_alterEntries]
  split
  · exact h
  · rename_i absent
    exact List.nodup_append.2 ⟨h, by simp, by
      rintro a ha b hb rfl
      exact absent (List.mem_singleton.1 hb ▸ ha)⟩

def alter (m : KeyedList κ ν) (key : κ) (f : Option ν → ν) : KeyedList κ ν :=
  ⟨alterEntries key f m.entries, nodup_keys_alterEntries m.nodup⟩

def insert (m : KeyedList κ ν) (key : κ) (value : ν) : KeyedList κ ν := m.alter key fun _ => value

@[simp] theorem get?_alter (m : KeyedList κ ν) (key key' : κ) (f : Option ν → ν) :
    (m.alter key f).get? key' = if key = key' then some (f (m.get? key)) else m.get? key' := by
  obtain ⟨entries, nodup⟩ := m
  simp only [alter, get?]
  clear nodup
  induction entries with
  | nil => by_cases h : key = key' <;> simp [alterEntries, h]
  | cons entry rest ih =>
    obtain ⟨k, v⟩ := entry
    by_cases hk : k = key
    · subst hk
      by_cases h : k = key' <;> simp [alterEntries, h]
    · by_cases h : k = key'
      · subst h
        simp [alterEntries, hk, Ne.symm hk]
      · simpa [alterEntries, hk, h] using ih

end KeyedList
end DoubleEntry
