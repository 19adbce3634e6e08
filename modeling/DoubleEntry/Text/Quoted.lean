/-! Quoted strings: between double quotes, with a backslash before each quote and backslash inside.
Main statement: a quoted string is found at the front of any text and stands for its content. -/
namespace DoubleEntry.Text

def isControl (c : Char) : Bool := c.toNat < 0x20

def escape : List Char → List Char
  | [] => []
  | c :: cs => if c = '"' ∨ c = '\\' then '\\' :: c :: escape cs else c :: escape cs

/-- Each backslash gives way to the character after it. -/
def unescape : List Char → List Char
  | '\\' :: c :: cs => c :: unescape cs
  | c :: cs => c :: unescape cs
  | [] => []

def quote (cs : List Char) : List Char := '"' :: escape cs ++ ['"']

/-- The characters up to and including the closing quote; none where a control character or the end
of the text comes first. -/
def throughQuote? : List Char → Option (List Char)
  | [] => none
  | '"' :: _ => some ['"']
  | '\\' :: c :: cs =>
    if isControl c then none else (throughQuote? cs).map ('\\' :: c :: ·)
  | c :: cs => if isControl c ∨ c = '\\' then none else (throughQuote? cs).map (c :: ·)

/-- The quoted string at the front of a text. -/
def quoted? : List Char → Option (List Char)
  | '"' :: cs => (throughQuote? cs).map ('"' :: ·)
  | _ => none

/-- What stands between the quotes of a quoted string. -/
def unquote (cs : List Char) : List Char := unescape ((cs.drop 1).dropLast)

theorem unescape_escape (cs : List Char) : unescape (escape cs) = cs := by
  induction cs with
  | nil => rfl
  | cons c cs ih =>
    by_cases h : c = '"' ∨ c = '\\'
    · simp [escape, h, unescape, ih]
    · obtain ⟨notQuote, notSlash⟩ := not_or.1 h
      simp [escape, unescape, notQuote, notSlash, ih]

/-- What may stand behind an opening quote, up to and including the closing one. -/
inductive Closes : List Char → Prop where
  | quote : Closes ['"']
  | escaped {c : Char} {cs : List Char} (hcontrol : isControl c = false) :
      Closes cs → Closes ('\\' :: c :: cs)
  | plain {c : Char} {cs : List Char} (hquote : c ≠ '"') (hslash : c ≠ '\\')
      (hcontrol : isControl c = false) : Closes cs → Closes (c :: cs)

namespace Closes

variable {text : List Char}

/-- What closes a string is found whatever stands behind it. -/
theorem throughQuote?_append (h : Closes text) (rest : List Char) :
    throughQuote? (text ++ rest) = some text := by
  induction h with
  | quote => rfl
  | escaped hcontrol _ ih => simp [throughQuote?, hcontrol, ih]
  | plain hquote hslash hcontrol _ ih => simp [throughQuote?, hslash, hcontrol, ih]

theorem exists_concat (h : Closes text) : ∃ front, text = front ++ ['"'] := by
  induction h with
  | quote => exact ⟨[], rfl⟩
  | @escaped c _ _ _ ih =>
    obtain ⟨front, rfl⟩ := ih
    exact ⟨'\\' :: c :: front, rfl⟩
  | @plain c _ _ _ _ _ ih =>
    obtain ⟨front, rfl⟩ := ih
    exact ⟨c :: front, rfl⟩

theorem not_isControl (h : Closes text) : ∀ c ∈ text, isControl c = false := by
  induction h with
  | quote => exact List.forall_mem_singleton.2 (by decide)
  | escaped hcontrol _ ih =>
    exact List.forall_mem_cons.2 ⟨by decide, List.forall_mem_cons.2 ⟨hcontrol, ih⟩⟩
  | plain _ _ hcontrol _ ih => exact List.forall_mem_cons.2 ⟨hcontrol, ih⟩

end Closes

theorem closes_escape {cs : List Char} (h : ∀ c ∈ cs, isControl c = false) :
    Closes (escape cs ++ ['"']) := by
  induction cs with
  | nil => exact .quote
  | cons c cs ih =>
    obtain ⟨hc, hcs⟩ := List.forall_mem_cons.1 h
    unfold escape
    split
    · exact .escaped hc (ih hcs)
    · rename_i hplain
      obtain ⟨hquote, hslash⟩ := not_or.1 hplain
      exact .plain hquote hslash hc (ih hcs)

theorem throughQuote?_eq_some_iff {cs text : List Char} :
    throughQuote? cs = some text ↔ Closes text ∧ text <+: cs := by
  constructor
  · intro h
    fun_induction throughQuote? cs generalizing text with
    | case1 => contradiction
    | case2 cs =>
      cases h
      exact ⟨.quote, cs, rfl⟩
    | case3 c cs hcontrol => contradiction
    | case4 c cs hcontrol ih =>
      obtain ⟨inner, hinner, rfl⟩ := Option.map_eq_some_iff.1 h
      obtain ⟨hcloses, rest, rfl⟩ := ih hinner
      exact ⟨.escaped (by simpa using hcontrol) hcloses, rest, rfl⟩
    | case5 c cs _ _ hcontrol => contradiction
    | case6 c cs hquote _ hcontrol ih =>
      obtain ⟨inner, hinner, rfl⟩ := Option.map_eq_some_iff.1 h
      obtain ⟨hcloses, rest, rfl⟩ := ih hinner
      obtain ⟨hcontrol, hslash⟩ := not_or.1 hcontrol
      exact ⟨.plain hquote hslash (by simpa using hcontrol) hcloses, rest, rfl⟩
  · rintro ⟨hcloses, rest, rfl⟩
    exact hcloses.throughQuote?_append rest

theorem quoted?_eq_some_iff {cs text : List Char} :
    quoted? cs = some text ↔ ∃ inner, text = '"' :: inner ∧ Closes inner ∧ text <+: cs := by
  constructor
  · intro h
    unfold quoted? at h
    split at h
    · obtain ⟨inner, hinner, rfl⟩ := Option.map_eq_some_iff.1 h
      obtain ⟨hcloses, hfront⟩ := throughQuote?_eq_some_iff.1 hinner
      exact ⟨inner, rfl, hcloses, List.cons_prefix_cons.2 ⟨rfl, hfront⟩⟩
    · contradiction
  · rintro ⟨inner, rfl, hcloses, rest, rfl⟩
    rw [List.cons_append, quoted?, hcloses.throughQuote?_append]
    rfl

theorem quoted?_quote_append (cs rest : List Char) (h : ∀ c ∈ cs, isControl c = false) :
    quoted? (quote cs ++ rest) = some (quote cs) :=
  quoted?_eq_some_iff.2 ⟨_, rfl, closes_escape h, List.prefix_append _ _⟩

/-- What is found stands at the front and ends with the closing quote. -/
theorem quoted?_concat {cs text : List Char} (h : quoted? cs = some text) :
    text <+: cs ∧ ∃ front, text = front ++ ['"'] := by
  obtain ⟨inner, rfl, hcloses, hfront⟩ := quoted?_eq_some_iff.1 h
  obtain ⟨front, rfl⟩ := hcloses.exists_concat
  exact ⟨hfront, '"' :: front, rfl⟩

/-- What is found does not depend on what stands behind it. -/
theorem quoted?_append {cs text : List Char} (h : quoted? cs = some text) (rest : List Char) :
    quoted? (text ++ rest) = some text := by
  obtain ⟨inner, rfl, hcloses, _⟩ := quoted?_eq_some_iff.1 h
  exact quoted?_eq_some_iff.2 ⟨inner, rfl, hcloses, List.prefix_append _ _⟩

@[simp] theorem unquote_quote (cs : List Char) : unquote (quote cs) = cs := by
  simp [unquote, quote, unescape_escape]

end DoubleEntry.Text
