/-! Values by key, in ascending order of the keys. Main statement: maps that answer alike are equal. -/
namespace DoubleEntry

/-- A strict order in which any two different keys compare. -/
class KeyOrder (κ : Type) [LT κ] : Prop where
  irrefl (a : κ) : ¬ a < a
  trans {a b c : κ} : a < b → b < c → a < c
  eq_of_not_lt {a b : κ} : ¬ a < b → ¬ b < a → a = b

structure SortedMap (κ ν : Type) [LT κ] where
  entries : List (κ × ν)
  sorted : entries.Pairwise fun a b => a.1 < b.1

namespace SortedMap

variable {κ ν : Type} [LT κ] [DecidableEq κ]

def empty : SortedMap κ ν := ⟨[], .nil⟩

def get? (m : SortedMap κ ν) (key : κ) : Option ν :=
  (m.entries.find? fun entry => entry.1 = key).map (·.2)

def keys (m : SortedMap κ ν) : List κ := m.entries.map (·.1)

def size (m : SortedMap κ ν) : Nat := m.entries.length

/-- Changes the values and none of the keys. -/
def map {ν' : Type} (f : ν → ν') (m : SortedMap κ ν) : SortedMap κ ν' :=
  ⟨m.entries.map fun entry => (entry.1, f entry.2), List.pairwise_map.2 m.sorted⟩

omit [DecidableEq κ] in
theorem map_eq_self {f : ν → ν} (h : ∀ value, f value = value) (m : SortedMap κ ν) :
    m.map f = m := by
  obtain ⟨entries, sorted⟩ := m
  simp [map, h]

theorem find?_eq_none_of_lt [KeyOrder κ] {key : κ} {entries : List (κ × ν)}
    (h : ∀ e ∈ entries, key < e.1) :
    (entries.find? fun entry => entry.1 = key) = none := by
  simp only [List.find?_eq_none, decide_eq_true_eq]
  intro e mem eq
  exact KeyOrder.irrefl key (by simpa [eq] using h e mem)

/-- Sorted maps that answer alike are equal. -/
theorem ext_get? [KeyOrder κ] {m n : SortedMap κ ν} (h : ∀ key, m.get? key = n.get? key) : m = n := by
  obtain ⟨a, ha⟩ := m
  obtain ⟨b, hb⟩ := n
  simp only [get?, mk.injEq] at h ⊢
  induction a generalizing b with
  | nil =>
    cases b with
    | nil => rfl
    | cons e b => simpa using h e.1
  | cons e a ih =>
    cases b with
    | nil => simpa using h e.1
    | cons e' b =>
      obtain ⟨aboveA, sortedA⟩ := List.pairwise_cons.1 ha
      obtain ⟨aboveB, sortedB⟩ := List.pairwise_cons.1 hb
      have same : e.1 = e'.1 := by
        refine KeyOrder.eq_of_not_lt (fun lt => ?_) (fun lt => ?_)
        · have absent : ((e' :: b).find? fun entry => entry.1 = e.1) = none :=
            find?_eq_none_of_lt fun x mem => by
              rcases List.mem_cons.1 mem with rfl | mem
              · exact lt
              · exact KeyOrder.trans lt (aboveB x mem)
          simpa [absent] using h e.1
        · have absent : ((e :: a).find? fun entry => entry.1 = e'.1) = none :=
            find?_eq_none_of_lt fun x mem => by
              rcases List.mem_cons.1 mem with rfl | mem
              · exact lt
              · exact KeyOrder.trans lt (aboveA x mem)
          simpa [absent] using h e'.1
      have value : e.2 = e'.2 := by simpa [same] using h e.1
      obtain rfl : e = e' := Prod.ext same value
      congr 1
      refine ih sortedA b sortedB fun key => ?_
      by_cases hk : e.1 = key
      · subst hk
        rw [find?_eq_none_of_lt aboveA, find?_eq_none_of_lt aboveB]
      · simpa [hk] using h key

variable [DecidableLT κ]

/-- Replaces the value of a key, or puts a new key in its place of the order. -/
def alterEntries (key : κ) (f : Option ν → ν) : List (κ × ν) → List (κ × ν)
  | [] => [(key, f none)]
  | (k, v) :: rest =>
    if k = key then (k, f (some v)) :: rest
    else if key < k then (key, f none) :: (k, v) :: rest
    else (k, v) :: alterEntries key f rest

theorem key_of_mem_alterEntries {key : κ} {f : Option ν → ν} {entries : List (κ × ν)} {e : κ × ν}
    (h : e ∈ alterEntries key f entries) : e.1 = key ∨ e ∈ entries := by
  induction entries with
  | nil =>
    simp only [alterEntries, List.mem_singleton] at h
    simp [h]
  | cons entry rest ih =>
    obtain ⟨k, v⟩ := entry
    simp only [alterEntries] at h
    split at h
    · simp only [List.mem_cons] at h
      rcases h with rfl | h
      · exact .inl (by assumption)
      · simp [h]
    · split at h
      · simp only [List.mem_cons] at h
        rcases h with rfl | h | h <;> simp [*]
      · simp only [List.mem_cons] at h
        rcases h with rfl | h
        · simp
        · rcases ih h with h | h <;> simp [h]

theorem pairwise_alterEntries [KeyOrder κ] {key : κ} {f : Option ν → ν} {entries : List (κ × ν)}
    (h : entries.Pairwise fun a b => a.1 < b.1) :
    (alterEntries key f entries).Pairwise fun a b => a.1 < b.1 := by
  induction entries with
  | nil => simp [alterEntries]
  | cons entry rest ih =>
    obtain ⟨k, v⟩ := entry
    obtain ⟨above, sorted⟩ := List.pairwise_cons.1 h
    simp only [alterEntries]
    split
    · exact List.pairwise_cons.2 ⟨above, sorted⟩
    · rename_i ne
      split
      · rename_i lt
        refine List.pairwise_cons.2 ⟨?_, h⟩
        intro e mem
        rcases List.mem_cons.1 mem with rfl | mem
        · exact lt
        · exact KeyOrder.trans lt (above e mem)
      · rename_i notLt
        refine List.pairwise_cons.2 ⟨?_, ih sorted⟩
        intro e mem
        rcases key_of_mem_alterEntries mem with rfl | mem
        · exact Decidable.byContradiction fun h => ne (KeyOrder.eq_of_not_lt h notLt)
        · exact above e mem

variable [KeyOrder κ]

def alter (m : SortedMap κ ν) (key : κ) (f : Option ν → ν) : SortedMap κ ν :=
  ⟨alterEntries key f m.entries, pairwise_alterEntries m.sorted⟩

@[simp] theorem get?_alter (m : SortedMap κ ν) (key key' : κ) (f : Option ν → ν) :
    (m.alter key f).get? key' = if key = key' then some (f (m.get? key)) else m.get? key' := by
  obtain ⟨entries, sorted⟩ := m
  simp only [alter, get?]
  induction entries with
  | nil => by_cases h : key = key' <;> simp [alterEntries, h]
  | cons entry rest ih =>
    obtain ⟨k, v⟩ := entry
    obtain ⟨above, sorted⟩ := List.pairwise_cons.1 sorted
    by_cases hk : k = key
    · subst hk
      by_cases h : k = key' <;> simp [alterEntries, h]
    · by_cases lt : key < k
      · have absent : (rest.find? fun entry => entry.1 = key) = none :=
          find?_eq_none_of_lt fun e mem => KeyOrder.trans lt (above e mem)
        by_cases h : key = key'
        · subst h
          simp [alterEntries, hk, lt, absent]
        · simp [alterEntries, hk, lt, h]
      · by_cases h : k = key'
        · subst h
          simp [alterEntries, hk, lt, Ne.symm hk]
        · simpa [alterEntries, hk, lt, h] using ih sorted

end SortedMap
end DoubleEntry
