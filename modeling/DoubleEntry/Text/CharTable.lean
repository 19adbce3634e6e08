/-! Sets of characters given by inclusive ranges of code points, in ascending order. -/
namespace DoubleEntry.Text

/-- Every range is well formed and ends below the start of the next. -/
def areAscending : List (Nat × Nat) → Bool
  | [] => true
  | [(low, high)] => low ≤ high
  | (low, high) :: (low', high') :: rest =>
      low ≤ high && high < low' && areAscending ((low', high') :: rest)

structure CharTable where
  ranges : List (Nat × Nat)
  ascending : areAscending ranges = true

/-- The search stops at the first range that lies above the code point. -/
def isAmong : List (Nat × Nat) → Nat → Bool
  | [], _ => false
  | (low, high) :: rest, n => if n < low then false else n ≤ high || isAmong rest n

def CharTable.contains (table : CharTable) (n : Nat) : Bool := isAmong table.ranges n

theorem lt_of_areAscending {low high : Nat} {rest : List (Nat × Nat)}
    (h : areAscending ((low, high) :: rest) = true) : low ≤ high ∧ ∀ r ∈ rest, high < r.1 := by
  induction rest generalizing low high with
  | nil => simpa [areAscending] using h
  | cons next rest ih =>
    obtain ⟨low', high'⟩ := next
    simp only [areAscending, Bool.and_eq_true, decide_eq_true_eq] at h
    obtain ⟨⟨le, lt⟩, h⟩ := h
    obtain ⟨le', above⟩ := ih h
    refine ⟨le, fun r mem => ?_⟩
    rcases List.mem_cons.1 mem with rfl | mem
    · exact lt
    · have := above r mem; omega

theorem areAscending_tail {r : Nat × Nat} {rest : List (Nat × Nat)}
    (h : areAscending (r :: rest) = true) : areAscending rest = true := by
  cases rest with
  | nil => rfl
  | cons next rest =>
    simp only [areAscending, Bool.and_eq_true] at h
    exact h.2

theorem isAmong_iff {ranges : List (Nat × Nat)} (h : areAscending ranges = true) (n : Nat) :
    isAmong ranges n = true ↔ ∃ r ∈ ranges, r.1 ≤ n ∧ n ≤ r.2 := by
  induction ranges with
  | nil => simp [isAmong]
  | cons first rest ih =>
    obtain ⟨low, high⟩ := first
    obtain ⟨_, above⟩ := lt_of_areAscending h
    simp only [isAmong, List.mem_cons, exists_eq_or_imp]
    by_cases below : n < low
    · have later : ¬ ∃ r ∈ rest, r.1 ≤ n ∧ n ≤ r.2 := by
        rintro ⟨r, mem, bounds⟩
        have := above r mem
        omega
      simp [below, Nat.not_le.2 below, later]
    · simp [below, Nat.not_lt.1 below, ih (areAscending_tail h)]

/-- In ascending order the search misses nothing. -/
theorem CharTable.contains_iff (table : CharTable) (n : Nat) :
    table.contains n = true ↔ ∃ r ∈ table.ranges, r.1 ≤ n ∧ n ≤ r.2 :=
  isAmong_iff table.ascending n

end DoubleEntry.Text
