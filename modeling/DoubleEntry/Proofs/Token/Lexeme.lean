import DoubleEntry.Proofs.Decimal.Nominal
import DoubleEntry.Statement.OfToken
import DoubleEntry.Statement.Written

/-! The words of each class: that they are found at the front of a text, and what they mean. -/
namespace DoubleEntry

open Text

/-! ## Finding a word -/

theorem firstWord_append {word rest : List Char} (hword : ∀ c ∈ word, isInk c = true)
    (hrest : Lexeme.endsHere rest = true) : firstWord (word ++ rest) = word := by
  unfold firstWord
  have hpos : ∀ c ∈ word, (!endsWord c) = true := by
    intro c hc
    rw [endsWord_of_isInk (hword c hc)]
    rfl
  rw [List.takeWhile_append_of_pos hpos]
  cases rest with
  | nil => simp
  | cons c rest =>
    have hc : endsWord c = true := by simpa [Lexeme.endsHere] using hrest
    simp [hc]

namespace Lexeme

theorem read?_append {kind : Lexeme} {word rest : List Char} (hkind : kind ≠ .string)
    (haccepts : kind.accepts word = true) (hword : ∀ c ∈ word, isInk c = true)
    (hrest : endsHere rest = true) : kind.read? (word ++ rest) = some word := by
  unfold read?
  simp only [if_neg hkind, firstWord_append hword hrest]
  rw [if_pos haccepts]

theorem read?_quote {s : String} {rest : List Char} (hs : isQuotable s = true)
    (hrest : endsHere rest = true) :
    Lexeme.string.read? (quotedChars s ++ rest) = some (quotedChars s) := by
  have hcontrol : ∀ c ∈ s.toList, isControl c = false := by
    intro c hc
    have := List.all_eq_true.1 hs c hc
    simpa using this
  unfold read? quotedChars
  rw [if_pos rfl, quoted?_quote_append _ _ hcontrol, Option.filter_some, if_pos]
  simpa using hrest

/-! ## Currencies and flags -/

theorem toNat_lt_of_isCurrencyChar {c : Char} (h : isCurrencyChar c = true) : c.toNat < 96 := by
  simp only [isCurrencyChar, Bool.or_eq_true, decide_eq_true_eq] at h
  rcases h with ((((h | h) | rfl) | rfl) | rfl) | rfl
  · have hle : c.val ≤ 'Z'.val := (of_decide_eq_true h).2
    exact Nat.lt_of_le_of_lt (UInt32.le_iff_toNat_le.1 hle) (by decide)
  · have hle : c.val ≤ '9'.val := of_decide_eq_true (Bool.and_eq_true_iff.1 h).2
    exact Nat.lt_of_le_of_lt (UInt32.le_iff_toNat_le.1 hle) (by decide)
  all_goals decide

theorem isInk_of_isCurrencyChar {c : Char} (h : isCurrencyChar c = true) : isInk c = true := by
  have hall : ∀ n < 96, isCurrencyChar (Char.ofNat n) = true → isInk (Char.ofNat n) = true := by
    decide
  exact forall_char_below (P := fun c => isCurrencyChar c = true → isInk c = true) hall
    (toNat_lt_of_isCurrencyChar h) h

theorem isCurrencyChar_of_mem {cs : List Char} (h : isCurrency cs = true) {c : Char} (hc : c ∈ cs) :
    isCurrencyChar c = true := by
  cases cs with
  | nil => contradiction
  | cons d ds =>
    simp only [isCurrency, Bool.and_eq_true, List.all_eq_true] at h
    rcases List.mem_cons.1 hc with rfl | hc
    · simp [isCurrencyChar, h.1]
    · exact h.2 c hc

theorem exists_state_of_isFlag {cs : List Char} (h : isFlag cs = true) :
    ∃ state, TransactionState.ofFlag? (.ofList cs) = some state := by
  simp only [isFlag, Bool.or_eq_true, decide_eq_true_eq] at h
  rcases h with (rfl | rfl) | rfl
  · exact ⟨.settled, by decide⟩
  · exact ⟨.unsettled, by decide⟩
  · exact ⟨.recurring, by decide⟩

/-! ## Accounts -/

theorem isWordChar_of_mem_segment {segment : List Char} (h : isSegment segment = true) {c : Char}
    (hc : c ∈ segment) : isWordChar c = true ∨ c = '-' := by
  cases segment with
  | nil => contradiction
  | cons d ds =>
    simp only [isSegment, Bool.and_eq_true, List.all_eq_true, Bool.or_eq_true,
      decide_eq_true_eq] at h
    rcases List.mem_cons.1 hc with rfl | hc
    · exact .inl h.1.1
    · exact h.2 c hc

theorem isInk_of_mem_segment {segment : List Char} (h : isSegment segment = true) {c : Char}
    (hc : c ∈ segment) : isInk c = true := by
  rcases isWordChar_of_mem_segment h hc with hc | rfl
  · exact isInk_of_isWordChar hc
  · decide

theorem isSegmentName_of_isSegment {segment : List Char} (h : isSegment segment = true) :
    isSegmentName (.ofList segment) = true := by
  have hne : segment ≠ [] := by
    rintro rfl
    contradiction
  have hfree : accountSeparator ∉ segment := by
    intro hc
    rcases isWordChar_of_mem_segment h hc with hc | hc
    · revert hc
      decide +kernel
    · contradiction
  simp only [isSegmentName, String.toList_ofList, Bool.and_eq_true, decide_eq_true_eq]
  refine ⟨?_, by simpa using hfree⟩
  intro hempty
  exact hne (by simpa using congrArg String.toList hempty)

theorem isAccount_iff (cs : List Char) :
    isAccount cs = true ↔
      ((AccountKind.ofText? (.ofList (splitAt accountSeparator cs).1)).isSome = true ∧
        (splitAt accountSeparator cs).2 ≠ []) ∧
      ∀ segment ∈ (splitAt accountSeparator cs).2, isSegment segment = true := by
  unfold isAccount
  simp only [Bool.and_eq_true, decide_eq_true_eq, List.all_eq_true]
  rfl

theorem exists_account_of_isAccount {cs : List Char} (h : isAccount cs = true) :
    ∃ account, AccountName.ofText (.ofList cs) = .ok account := by
  obtain ⟨⟨hkind, hne⟩, hsegments⟩ := (isAccount_iff cs).1 h
  obtain ⟨kind, hkind⟩ := Option.isSome_iff_exists.1 hkind
  have hnames : ∀ segment ∈ (splitAt accountSeparator cs).2.map String.ofList,
      isSegmentName segment = true := by
    intro segment hmem
    obtain ⟨piece, hpiece, rfl⟩ := List.mem_map.1 hmem
    exact isSegmentName_of_isSegment (hsegments piece hpiece)
  let account : AccountName := ⟨kind, _, by simpa using hne, hnames⟩
  refine ⟨account, ?_⟩
  have hparts := AccountName.ofParts_parts account
  unfold AccountName.ofText AccountName.ofText?
  simp only [String.toList_ofList, hkind, Option.bind_some, account] at hparts ⊢
  rw [hparts]
  rfl

theorem isAccount_chars {a : AccountName} (h : a.isWritable = true) : isAccount a.chars = true := by
  rw [isAccount_iff, a.splitAt_chars, String.ofList_toList, AccountKind.ofText?_text]
  refine ⟨⟨rfl, by simpa using a.segments_ne_nil⟩, ?_⟩
  intro segment hmem
  obtain ⟨name, hname, rfl⟩ := List.mem_map.1 hmem
  exact List.all_eq_true.1 h name hname

theorem isInk_of_mem_account {a : AccountName} (h : a.isWritable = true) {c : Char}
    (hc : c ∈ a.chars) : isInk c = true := by
  rcases mem_joinWith hc with rfl | ⟨piece, hpiece, hc⟩
  · decide
  rcases List.mem_cons.1 hpiece with rfl | hpiece
  · have hall : ∀ kind ∈ AccountKind.all, kind.text.toList.all isInk = true := by decide
    exact List.all_eq_true.1 (hall a.kind (AccountKind.mem_all _)) c hc
  · obtain ⟨segment, hsegment, rfl⟩ := List.mem_map.1 hpiece
    exact isInk_of_mem_segment (List.all_eq_true.1 h segment hsegment) hc

/-! ## Blanks -/

theorem not_isBlank_of_mem_account {cs : List Char} (h : isAccount cs = true) {c : Char}
    (hc : c ∈ cs) : isBlank c = false := by
  obtain ⟨⟨hkind, _⟩, hsegments⟩ := (isAccount_iff cs).1 h
  obtain ⟨kind, hkind⟩ := Option.isSome_iff_exists.1 hkind
  have htext := congrArg String.toList (AccountKind.text_of_ofText? hkind)
  rw [String.toList_ofList] at htext
  rw [← joinWith_splitAt accountSeparator cs] at hc
  rcases mem_joinWith hc with rfl | ⟨piece, hpiece, hc⟩
  · decide
  rcases List.mem_cons.1 hpiece with rfl | hpiece
  · have hall : kind.text.toList.all (!isBlank ·) = true := by cases kind <;> decide
    rw [← htext] at hc
    simpa using List.all_eq_true.1 hall c hc
  · rcases isWordChar_of_mem_segment (hsegments piece hpiece) hc with hword | rfl
    · exact not_isBlank_of_isWordChar hword
    · decide

theorem isDigit_or_dash_of_mem_date {cs : List Char} (h : Date.hasForm cs = true) {c : Char}
    (hc : c ∈ cs) : c.isDigit = true ∨ c = '-' := by
  by_cases hdash : c = '-'
  · exact .inr hdash
  unfold Date.hasForm at h
  split at h
  · exact .inl (List.all_eq_true.1 h c (by simpa [hdash] using hc))
  · contradiction

theorem not_isBlank_of_isCurrencyChar {c : Char} (h : isCurrencyChar c = true) :
    isBlank c = false := by
  have hall : ∀ n < 96, isCurrencyChar (Char.ofNat n) = true → isBlank (Char.ofNat n) = false := by
    decide
  exact forall_char_below (P := fun c => isCurrencyChar c = true → isBlank c = false) hall
    (toNat_lt_of_isCurrencyChar h) h

/-- A word is not empty and free of blanks. -/
theorem not_isBlank_of_accepts {kind : Lexeme} {word : List Char} (h : kind.accepts word = true) :
    word ≠ [] ∧ ∀ c ∈ word, isBlank c = false := by
  have hnominal {c : Char} (hc : Nominal.isChar c = true) : isBlank c = false :=
    (Nominal.isVerbatim_of_isChar hc).1
  have hne : word ≠ [] := by
    rintro rfl
    cases kind <;> revert h <;> decide
  refine ⟨hne, fun c hc => ?_⟩
  cases kind with
  | date =>
    rcases isDigit_or_dash_of_mem_date h hc with hdigit | rfl
    · exact hnominal (Nominal.isChar_of_isDigit hdigit)
    · decide
  | string => exact absurd h Bool.false_ne_true
  | account => exact not_isBlank_of_mem_account h hc
  | nominal =>
    obtain ⟨n, rfl⟩ := Nominal.exists_of_isNominal h
    exact hnominal (Nominal.isChar_of_mem hc)
  | currency => exact not_isBlank_of_isCurrencyChar (isCurrencyChar_of_mem h hc)
  | flag =>
    simp only [accepts, isFlag, Bool.or_eq_true, decide_eq_true_eq] at h
    rcases h with (rfl | rfl) | rfl <;> rw [List.mem_singleton.1 hc] <;> decide

/-- A lexeme stands at the front of what is read and ends with a character that is not blank. -/
theorem read?_concat {kind : Lexeme} {cs text : List Char} (h : kind.read? cs = some text) :
    text <+: cs ∧ ∃ front last, text = front ++ [last] ∧ isBlank last = false := by
  unfold read? at h
  split at h
  · rw [Option.filter_eq_some_iff] at h
    obtain ⟨hfront, front, rfl⟩ := quoted?_concat h.1
    exact ⟨hfront, front, '"', rfl, by decide⟩
  · simp only at h
    split at h
    · rename_i haccepts
      cases h
      obtain ⟨hne, hblank⟩ := not_isBlank_of_accepts haccepts
      refine ⟨List.takeWhile_prefix _, _, _, (List.dropLast_concat_getLast hne).symm, ?_⟩
      exact hblank _ (List.getLast_mem hne)
    · contradiction

end Lexeme
end DoubleEntry
