import DoubleEntry.Proofs.Statement.Meaning

/-! Words as written, with spaces between them: each is read as the token it is written from. -/
namespace DoubleEntry

open Scan Text

@[simp] theorem spaced_singleton (word : List Char) : spaced [word] = word := by
  unfold spaced joinWith
  exact List.intercalate_singleton

@[simp] theorem spaced_cons_cons (word next : List Char) (words : List (List Char)) :
    spaced (word :: next :: words) = word ++ ' ' :: spaced (next :: words) := by
  unfold spaced joinWith
  rw [List.intercalate_cons_cons, List.append_assoc, List.singleton_append]

/-- Starts with a character that may stand inside a word. -/
def StartsInk (cs : List Char) : Prop := cs.head?.any isInk = true

theorem StartsInk.dropWhile_isGap {cs : List Char} (h : StartsInk cs) : cs.dropWhile isGap = cs := by
  cases cs with
  | nil => rfl
  | cons c cs => rw [List.dropWhile_cons_of_neg (by simp [isGap_of_isInk h])]

theorem StartsInk.append {word : List Char} (h : StartsInk word) (rest : List Char) :
    StartsInk (word ++ rest) := by
  cases word with
  | nil => contradiction
  | cons c cs => exact h

theorem startsInk_of_isInk {word : List Char} (hne : word ≠ []) (h : ∀ c ∈ word, isInk c = true) :
    StartsInk word := by
  cases word with
  | nil => contradiction
  | cons c cs => exact h c (by simp)

theorem StartsInk.spaced {word : List Char} (h : StartsInk word) (words : List (List Char)) :
    StartsInk (spaced (word :: words)) := by
  cases words with
  | nil =>
    rw [spaced_singleton]
    exact h
  | cons next words =>
    rw [spaced_cons_cons]
    exact h.append _

namespace Date

theorem isInk_of_mem_chars {d : Date} {c : Char} (h : c ∈ d.chars) : isInk c = true := by
  apply Nominal.isInk_of_isChar
  unfold chars at h
  simp only [List.mem_append, List.mem_cons] at h
  rcases h with (h | rfl | h) | rfl | h
  · exact Nominal.isChar_of_isDigit (isDigit_of_mem_padded h)
  · rfl
  · exact Nominal.isChar_of_isDigit (isDigit_of_mem_padded h)
  · rfl
  · exact Nominal.isChar_of_isDigit (isDigit_of_mem_padded h)

theorem exists_head (d : Date) : ∃ c cs, d.chars = c :: cs ∧ c.isDigit = true := by
  have hform := d.hasForm_chars
  obtain ⟨a, b, c, e, f, g, h, i, hshape, _⟩ := d.chars_eq
  rw [hshape] at hform ⊢
  simp only [hasForm, List.all_cons, Bool.and_eq_true] at hform
  exact ⟨a, _, rfl, hform.1⟩

theorem startsInk_chars (d : Date) : StartsInk d.chars := by
  refine startsInk_of_isInk ?_ fun c => isInk_of_mem_chars
  obtain ⟨c, cs, hchars, _⟩ := d.exists_head
  simp [hchars]

end Date

theorem AccountName.startsInk_chars {a : AccountName} (h : a.isWritable = true) : StartsInk a.chars := by
  refine startsInk_of_isInk ?_ fun c => Lexeme.isInk_of_mem_account h
  intro hnil
  have hsplit := a.splitAt_chars
  rw [hnil] at hsplit
  have hkind := congrArg Prod.fst hsplit
  cases hk : a.kind <;> simp [splitAt, splitWhere, hk] at hkind <;> revert hkind <;> decide

theorem isInk_of_mem_code {code : String} (h : Lexeme.isCurrency code.toList = true) {c : Char}
    (hc : c ∈ code.toList) : isInk c = true :=
  Lexeme.isInk_of_isCurrencyChar (Lexeme.isCurrencyChar_of_mem h hc)

theorem startsInk_code {code : String} (h : Lexeme.isCurrency code.toList = true) :
    StartsInk code.toList := by
  refine startsInk_of_isInk ?_ fun c => isInk_of_mem_code h
  intro hnil
  rw [hnil] at h
  contradiction

theorem startsInk_quotedChars (s : String) : StartsInk (quotedChars s) := rfl

theorem isInk_of_mem_plainChars {d : Decimal} {c : Char} (h : c ∈ d.plainChars) :
    isInk c = true := by
  obtain ⟨n, hn, _⟩ := d.exists_plainChars
  rw [← hn] at h
  exact Nominal.isInk_of_isChar (Nominal.isChar_of_mem h)

theorem startsInk_plainChars (d : Decimal) : StartsInk d.plainChars := by
  refine startsInk_of_isInk ?_ fun c => isInk_of_mem_plainChars
  obtain ⟨n, hn, _⟩ := d.exists_plainChars
  obtain ⟨c, rest, hbody, _⟩ := n.exists_body
  rw [← hn, Nominal.chars, hbody]
  simp

namespace Scan

variable {rest : List Char}

theorem reads_word (kind : Lexeme) {word : List Char} (hkind : kind ≠ .string)
    (haccepts : kind.accepts word = true) (hword : ∀ c ∈ word, isInk c = true)
    (hrest : Lexeme.endsHere rest = true) :
    Reads (lexeme kind) word rest fun t => t.rule = kind.rule ∧ t.text = .ofList word :=
  reads_lexeme (Lexeme.read?_append hkind haccepts hword hrest)

theorem reads_date (day : Date) (hrest : Lexeme.endsHere rest = true) :
    Reads (lexeme .date) day.chars rest fun t => Date.ofToken t = .ok day := by
  refine (reads_word .date (by decide) day.hasForm_chars (fun c => Date.isInk_of_mem_chars) hrest).mono ?_
  intro t ht
  have htext := day.ofText?_text
  unfold Date.ofToken
  rw [ht.2]
  unfold Date.text at htext
  rw [htext]

theorem reads_account {a : AccountName} (h : a.isWritable = true)
    (hrest : Lexeme.endsHere rest = true) :
    Reads (lexeme .account) a.chars rest fun t => AccountName.ofToken t = .ok a := by
  refine (reads_word .account (by decide) (Lexeme.isAccount_chars h)
    (fun c => Lexeme.isInk_of_mem_account h) hrest).mono ?_
  intro t ht
  have htext := a.ofText?_text
  unfold AccountName.ofToken AccountName.ofText
  rw [ht.2]
  unfold AccountName.text at htext
  rw [htext]
  rfl

theorem reads_currency {code : String} (h : Lexeme.isCurrency code.toList = true)
    (hrest : Lexeme.endsHere rest = true) :
    Reads (lexeme .currency) code.toList rest fun t => t.text = code := by
  refine (reads_word .currency (by decide) h (fun c => isInk_of_mem_code h) hrest).mono ?_
  intro t ht
  rw [ht.2, String.ofList_toList]

theorem reads_nominal (d : Decimal) (hrest : Lexeme.endsHere rest = true) :
    Reads (lexeme .nominal) d.plainChars rest fun t =>
      ∃ value, Decimal.ofText t.text = .ok value ∧ value.canonical = d.canonical := by
  obtain ⟨n, hn, hvalue⟩ := d.exists_plainChars
  have haccepts : Lexeme.isNominal d.plainChars = true := hn ▸ n.isNominal_chars
  refine (reads_word .nominal (by decide) haccepts (fun c => isInk_of_mem_plainChars) hrest).mono ?_
  intro t ht
  refine ⟨n.value, ?_, hvalue⟩
  rw [ht.2, ← hn]
  exact n.ofText_chars

theorem reads_string {s : String} (h : isQuotable s = true)
    (hrest : Lexeme.endsHere rest = true) :
    Reads (lexeme .string) (quotedChars s) rest fun t => t.value = s := by
  refine (reads_lexeme (Lexeme.read?_quote h hrest)).mono ?_
  intro t ht
  have hrule : t.rule = .string := ht.1
  unfold Token.value
  rw [if_pos hrule, ht.2, String.toList_ofList, quotedChars, unquote_quote, String.ofList_toList]

theorem reads_flag {state : TransactionState} (h : state ≠ .virtual)
    (hrest : Lexeme.endsHere rest = true) :
    Reads (lexeme .flag) state.flag.toList rest fun t =>
      TransactionState.ofFlag? t.text = some state := by
  have haccepts : Lexeme.isFlag state.flag.toList = true := by
    cases state <;> first | contradiction | decide
  have hink : ∀ c ∈ state.flag.toList, isInk c = true := by
    apply List.all_eq_true.1
    cases state <;> decide
  refine (reads_word .flag (by decide) haccepts hink hrest).mono ?_
  intro t ht
  rw [ht.2, String.ofList_toList]
  exact TransactionState.ofFlag?_flag h

end Scan

end DoubleEntry
