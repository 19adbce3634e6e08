/-! Splitting text at separators, and the spellings of a line end. -/
namespace DoubleEntry.Text

/-- The stretch before the first separator, and the stretches after each of them. -/
def splitWhere (p : Char → Bool) : List Char → List Char × List (List Char)
  | [] => ([], [])
  | c :: cs =>
    let (piece, pieces) := splitWhere p cs
    if p c then ([], piece :: pieces) else (c :: piece, pieces)

def splitAt (separator : Char) : List Char → List Char × List (List Char) :=
  splitWhere (· == separator)

/-- The stretches of `splitAt` put together again. -/
def joinWith (separator : Char) (pieces : List (List Char)) : List Char :=
  [separator].intercalate pieces

theorem joinWith_splitAt (separator : Char) (cs : List Char) :
    joinWith separator ((splitAt separator cs).1 :: (splitAt separator cs).2) = cs := by
  induction cs with
  | nil => rfl
  | cons c cs ih =>
    simp only [splitAt, splitWhere] at ih ⊢
    split
    · rename_i h
      obtain rfl : c = separator := by simpa using h
      simpa [joinWith, List.intercalate_cons_cons] using ih
    · rename_i h
      generalize splitWhere (· == separator) cs = s at ih
      obtain ⟨piece, pieces⟩ := s
      cases pieces <;> simpa [joinWith, List.intercalate_cons_cons] using ih

theorem separator_not_mem_splitWhere {p : Char → Bool} (cs : List Char) :
    ∀ piece ∈ (splitWhere p cs).1 :: (splitWhere p cs).2, ∀ c ∈ piece, p c = false := by
  induction cs with
  | nil => simp [splitWhere]
  | cons c cs ih =>
    simp only [splitWhere]
    split
    · rintro piece mem
      simp only [List.mem_cons] at mem ih
      rcases mem with rfl | mem
      · simp
      · exact ih piece mem
    · rename_i h
      intro piece mem d hd
      simp only [List.mem_cons] at mem ih
      rcases mem with rfl | mem
      · simp only [List.mem_cons] at hd
        rcases hd with rfl | hd
        · simpa using h
        · exact ih _ (.inl rfl) d hd
      · exact ih _ (.inr mem) d hd

/-- Nothing but separators is lost. -/
theorem mem_splitWhere_iff {p : Char → Bool} {c : Char} (h : p c = false) (cs : List Char) :
    (∃ piece ∈ (splitWhere p cs).1 :: (splitWhere p cs).2, c ∈ piece) ↔ c ∈ cs := by
  induction cs with
  | nil => simp [splitWhere]
  | cons d cs ih =>
    rw [List.mem_cons, ← ih]
    simp only [splitWhere]
    split
    · rename_i hd
      have hne : c ≠ d := by
        rintro rfl
        simp [h] at hd
      simp [hne]
    · simp [or_assoc]

theorem splitWhere_of_not_mem {p : Char → Bool} {cs : List Char} (h : ∀ c ∈ cs, p c = false) :
    splitWhere p cs = (cs, []) := by
  induction cs with
  | nil => rfl
  | cons c cs ih => simp [splitWhere, h c (by simp), ih fun d hd => h d (by simp [hd])]

theorem splitWhere_append_cons {p : Char → Bool} {cs rest : List Char} {c : Char}
    (h : ∀ d ∈ cs, p d = false) (hc : p c = true) :
    splitWhere p (cs ++ c :: rest) = (cs, (splitWhere p rest).1 :: (splitWhere p rest).2) := by
  induction cs with
  | nil => simp [splitWhere, hc]
  | cons d cs ih => simp [splitWhere, h d (by simp), ih fun e he => h e (by simp [he])]

theorem splitAt_joinWith {separator : Char} {piece : List Char} {pieces : List (List Char)}
    (h : ∀ cs ∈ piece :: pieces, separator ∉ cs) :
    splitAt separator (joinWith separator (piece :: pieces)) = (piece, pieces) := by
  have free (cs : List Char) (mem : cs ∈ piece :: pieces) : ∀ c ∈ cs, (c == separator) = false :=
    fun c hc => by simpa using fun e : c = separator => h cs mem (e ▸ hc)
  induction pieces generalizing piece with
  | nil => simpa [splitAt, joinWith] using splitWhere_of_not_mem (free piece (by simp))
  | cons next pieces ih =>
    have ih := ih (fun cs mem => h cs (List.mem_cons_of_mem _ mem))
      fun cs mem => free cs (List.mem_cons_of_mem _ mem)
    rw [joinWith] at ih ⊢
    rw [List.intercalate_cons_cons, List.append_assoc, List.singleton_append, splitAt,
      splitWhere_append_cons (free piece (by simp)) (by simp)]
    rw [splitAt] at ih
    rw [ih]

/-- Writes every carriage return and line feed as a line feed alone. -/
def foldCrLf : List Char → List Char
  | '\r' :: '\n' :: cs => '\n' :: foldCrLf cs
  | c :: cs => c :: foldCrLf cs
  | [] => []

/-- Also writes a carriage return that stands alone as a line feed. -/
def foldLineEnds : List Char → List Char
  | '\r' :: '\n' :: cs => '\n' :: foldLineEnds cs
  | '\r' :: cs => '\n' :: foldLineEnds cs
  | c :: cs => c :: foldLineEnds cs
  | [] => []

/-- Line feed, vertical tab, form feed, carriage return, the three information separators and the
line and paragraph separators. -/
def isLineBoundary (c : Char) : Bool :=
  c ∈ ['\n', '\x0b', '\x0c', '\r', '\x1c', '\x1d', '\x1e', '\u0085', '\u2028', '\u2029']

/-- Lines as a display shows them: a boundary at the very end starts no further line. -/
def displayLines (cs : List Char) : List (List Char) :=
  let (first, others) := splitWhere isLineBoundary (foldCrLf cs)
  let pieces := first :: others
  if pieces.getLast? = some [] then pieces.dropLast else pieces

end DoubleEntry.Text
