import DoubleEntry.Collection.SortedMap

/-! Changes of sorted maps, and their entries. -/
namespace DoubleEntry.SortedMap

variable {κ ν : Type} [LT κ] [DecidableEq κ] [KeyOrder κ]

theorem alter_alter [DecidableLT κ] (m : SortedMap κ ν) (key : κ) (f g : Option ν → ν) :
    (m.alter key f).alter key g = m.alter key fun value => g (some (f value)) := by
  apply ext_get?
  intro key'
  by_cases h : key = key' <;> simp [h]

theorem alter_comm [DecidableLT κ] (m : SortedMap κ ν) {key key' : κ} (hne : key ≠ key')
    (f g : Option ν → ν) :
    (m.alter key f).alter key' g = (m.alter key' g).alter key f := by
  apply ext_get?
  intro other
  by_cases h : key = other
  · subst h
    simp [hne.symm]
  · by_cases h' : key' = other <;> simp [h, h']

theorem mem_entries_iff {m : SortedMap κ ν} {key : κ} {value : ν} :
    (key, value) ∈ m.entries ↔ m.get? key = some value := by
  obtain ⟨entries, sorted⟩ := m
  simp only [get?]
  induction entries with
  | nil => simp
  | cons entry rest ih =>
    obtain ⟨habove, hrest⟩ := List.pairwise_cons.1 sorted
    by_cases hkey : entry.1 = key
    · subst hkey
      have habsent : (entry.1, value) ∉ rest := fun hmem =>
        KeyOrder.irrefl entry.1 (habove (entry.1, value) hmem)
      simp [habsent, Prod.ext_iff, eq_comm]
    · have hne : (key, value) ≠ entry := fun heq => hkey (congrArg Prod.fst heq).symm
      simp [hkey, hne, ih hrest]

theorem mem_keys_iff {m : SortedMap κ ν} {key : κ} :
    key ∈ m.keys ↔ (m.get? key).isSome = true := by
  rw [Option.isSome_iff_exists]
  unfold keys
  rw [List.mem_map]
  constructor
  · rintro ⟨⟨key', value⟩, hmem, rfl⟩
    exact ⟨value, mem_entries_iff.1 hmem⟩
  · rintro ⟨value, hvalue⟩
    exact ⟨(key, value), mem_entries_iff.2 hvalue, rfl⟩

end DoubleEntry.SortedMap
