import DoubleEntry.Proofs.Token.ScanRules

/-! The end of a line is a gap and perhaps a comment. What stands in front of it is made out without
looking at it. -/
namespace DoubleEntry

open Text

/-- Only a gap and a comment. -/
def endsLine (cs : List Char) : Bool := (cs.dropWhile isGap).head?.all (· == commentMark)

theorem Cursor.atLineEnd_eq (c : Cursor) : c.atLineEnd = endsLine c.rest := by
  unfold atLineEnd endsLine
  rw [rest_skipGap]

theorem endsLine_of_append {cs ds : List Char} (h : endsLine (cs ++ ds) = true) :
    endsLine cs = true := by
  unfold endsLine at h ⊢
  rw [List.dropWhile_append] at h
  split at h
  · rename_i hnil
    rw [List.isEmpty_iff.1 hnil]
    rfl
  · rename_i hne
    rwa [List.head?_append_of_ne_nil _ (by simpa using hne)] at h

theorem takeWhile_append_of_length_lt {α : Type} {p : α → Bool} {xs ys : List α}
    (h : ((xs ++ ys).takeWhile p).length < xs.length) (zs : List α) :
    (xs ++ zs).takeWhile p = (xs ++ ys).takeWhile p := by
  have hne : (xs.takeWhile p).length ≠ xs.length := by
    intro heq
    rw [List.takeWhile_append, if_pos heq, List.length_append] at h
    omega
  rw [List.takeWhile_append, List.takeWhile_append, if_neg hne, if_neg hne]

theorem takeWhile_append_of_length_le {α : Type} {p : α → Bool} {xs ys : List α}
    (h : ((xs ++ ys).takeWhile p).length ≤ xs.length) :
    (xs ++ ys).takeWhile p = xs.takeWhile p := by
  rw [List.takeWhile_append] at h ⊢
  split
  · rename_i hall
    rw [if_pos hall, List.length_append] at h
    have hnil : ys.takeWhile p = [] := List.length_eq_zero_iff.1 (by omega)
    rw [hnil, List.append_nil, (List.takeWhile_prefix p).eq_of_length hall]
  · rfl

theorem takeWhile_ne_nil_iff {α : Type} {p : α → Bool} {xs : List α} :
    xs.takeWhile p ≠ [] ↔ xs.head?.any p = true := by
  cases xs with
  | nil => simp
  | cons x xs => simp [List.takeWhile_cons]

theorem Scan.startsWith_append {word : String} {cs : List Char} (h : word.length < cs.length)
    (rest : List Char) : startsWith word (cs ++ rest) = startsWith word cs := by
  have hfront : word.toList <+: cs ++ rest ↔ word.toList <+: cs := by
    constructor
    · intro hfront
      refine List.prefix_of_prefix_length_le hfront (List.prefix_append cs rest) ?_
      rw [String.length_toList]
      exact Nat.le_of_lt h
    · exact fun hfront => hfront.trans (List.prefix_append cs rest)
  have hhead : ((cs ++ rest).drop word.length).head? = (cs.drop word.length).head? := by
    rw [List.drop_append_of_le_length (Nat.le_of_lt h), List.head?_append_of_ne_nil]
    simpa using h
  unfold startsWith
  rw [hhead, Bool.eq_iff_iff, Bool.and_eq_true, Bool.and_eq_true, List.isPrefixOf_iff_prefix,
    List.isPrefixOf_iff_prefix, hfront]

section

variable {tail : List Char}

theorem firstWord_of_endsHere (h : Lexeme.endsHere tail = true) : firstWord tail = [] := by
  cases tail with
  | nil => rfl
  | cons c cs =>
    have hc : endsWord c = true := by simpa [Lexeme.endsHere] using h
    unfold firstWord
    rw [List.takeWhile_cons_of_neg (by simp [hc])]

theorem firstWord_append_of_endsHere (h : Lexeme.endsHere tail = true) (cs : List Char) :
    firstWord (cs ++ tail) = firstWord cs := by
  have htail := firstWord_of_endsHere h
  unfold firstWord at htail ⊢
  rw [List.takeWhile_append, htail, List.append_nil]
  split
  · rename_i hall
    exact ((List.takeWhile_prefix _).eq_of_length hall).symm
  · rfl

theorem Lexeme.endsHere_append (h : endsHere tail = true) (cs : List Char) :
    endsHere (cs ++ tail) = endsHere cs := by
  cases cs with
  | nil => exact h
  | cons c cs => rfl

theorem endsHere_of_mark (h : tail.head?.all (· == commentMark) = true) :
    Lexeme.endsHere tail = true := by
  cases tail with
  | nil => rfl
  | cons c cs =>
    obtain rfl : c = commentMark := by simpa using h
    rfl

variable (htail : endsLine tail = true)

include htail

theorem endsHere_of_endsLine : Lexeme.endsHere tail = true := by
  cases tail with
  | nil => rfl
  | cons c cs =>
    cases hgap : isGap c with
    | true => simp [Lexeme.endsHere, endsWord, hgap]
    | false =>
      unfold endsLine at htail
      rw [List.dropWhile_cons_of_neg (by simp [hgap])] at htail
      exact endsHere_of_mark htail

theorem endsLine_append (cs : List Char) : endsLine (cs ++ tail) = endsLine cs := by
  unfold endsLine at htail ⊢
  rw [List.dropWhile_append]
  split
  · rename_i hnil
    rw [htail, List.isEmpty_iff.1 hnil]
    rfl
  · rename_i hne
    rw [List.head?_append_of_ne_nil]
    simpa using hne

/-- The first word past the gap. -/
theorem firstWord_dropGap_append (cs : List Char) :
    firstWord ((cs ++ tail).dropWhile isGap) = firstWord (cs.dropWhile isGap) := by
  rw [List.dropWhile_append]
  split
  · rename_i hnil
    have hends : Lexeme.endsHere (tail.dropWhile isGap) = true := endsHere_of_mark htail
    rw [firstWord_of_endsHere hends, List.isEmpty_iff.1 hnil]
    rfl
  · exact firstWord_append_of_endsHere (endsHere_of_endsLine htail) _

theorem priceAhead_append (cs : List Char) :
    ((cs ++ tail).head?.any isGap = true ∧ firstWord ((cs ++ tail).dropWhile isGap) = [priceMark]) ↔
      cs.head?.any isGap = true ∧ firstWord (cs.dropWhile isGap) = [priceMark] := by
  rw [firstWord_dropGap_append htail]
  cases cs with
  | nil => simp [firstWord]
  | cons c cs => rfl

end

section

variable {cs tail tail' text : List Char} (htail : endsLine tail = true)
  (htail' : endsLine tail' = true)

include htail htail'

theorem Lexeme.read?_end {kind : Lexeme} (hlength : text.length ≤ cs.length)
    (h : kind.read? (cs ++ tail') = some text) : kind.read? (cs ++ tail) = some text := by
  have hends := endsHere_of_endsLine htail
  have hends' := endsHere_of_endsLine htail'
  unfold read? at h ⊢
  split
  · rename_i hstring
    rw [if_pos hstring, Option.filter_eq_some_iff] at h
    obtain ⟨hquoted, hstop⟩ := h
    obtain ⟨more, rfl⟩ := List.prefix_of_prefix_length_le (quoted?_concat hquoted).1
      (List.prefix_append cs tail') hlength
    rw [List.append_assoc] at hstop ⊢
    rw [List.drop_left, Lexeme.endsHere_append hends'] at hstop
    rw [quoted?_append hquoted, Option.filter_some, List.drop_left, Lexeme.endsHere_append hends,
      if_pos hstop]
  · rename_i hword
    rw [if_neg hword, firstWord_append_of_endsHere hends'] at h
    rwa [firstWord_append_of_endsHere hends]

end

/-! ## Statement words -/

theorem firstWord_of_startsWith {word : String} {cs : List Char}
    (hword : word.toList.all (!endsWord ·) = true) (h : Scan.startsWith word cs = true) :
    firstWord cs = word.toList := by
  rw [Scan.startsWith, Bool.and_eq_true, List.isPrefixOf_iff_prefix] at h
  obtain ⟨⟨rest, rfl⟩, hgap⟩ := h
  rw [← String.length_toList, List.drop_left] at hgap
  have hends : Lexeme.endsHere rest = true := by
    cases rest with
    | nil => rfl
    | cons c rest =>
      have hc : isGap c = true := by simpa using hgap
      simp [Lexeme.endsHere, endsWord, hc]
  rw [firstWord_append_of_endsHere hends]
  exact List.takeWhile_eq_self_iff.2 fun c hc => List.all_eq_true.1 hword c hc

theorem Scan.statementAhead?_eq_some_iff {cs : List Char} {word : String} {rule : Rule} :
    statementAhead? cs = some (word, rule) ↔
      (word, rule) ∈ statementWords ∧ startsWith word cs = true ∨
        Lexeme.isFlag (firstWord cs) = true ∧ word = "" ∧ rule = .transaction := by
  have hwords : ∀ found ∈ statementWords, found.1.toList.all (!endsWord ·) = true ∧
      Lexeme.isFlag found.1.toList = false := by decide
  have hdistinct : ∀ found ∈ statementWords, ∀ other ∈ statementWords,
      found.1.toList = other.1.toList → found = other := by decide
  unfold statementAhead?
  split
  · rename_i found hfind
    have hmem := List.mem_of_find?_eq_some hfind
    have hstarts : startsWith found.1 cs = true := by simpa using List.find?_some hfind
    have hfirst := firstWord_of_startsWith (hwords found hmem).1 hstarts
    constructor
    · intro h
      cases h
      exact .inl ⟨hmem, hstarts⟩
    · rintro (⟨hother, hother'⟩ | ⟨hflag, _⟩)
      · have hsame := firstWord_of_startsWith (hwords _ hother).1 hother'
        exact congrArg some (hdistinct _ hmem _ hother (hfirst.symm.trans hsame))
      · rw [hfirst, (hwords found hmem).2] at hflag
        contradiction
  · rename_i hfind
    rw [List.find?_eq_none] at hfind
    have hnone : ¬ ((word, rule) ∈ statementWords ∧ startsWith word cs = true) :=
      fun h => hfind _ h.1 h.2
    simp only [hnone, false_or]
    split
    · rename_i hflag
      simp [hflag, eq_comm]
    · rename_i hflag
      simp [hflag]

end DoubleEntry
