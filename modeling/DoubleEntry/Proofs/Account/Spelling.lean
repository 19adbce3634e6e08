import DoubleEntry.Proofs.Account.Names
import DoubleEntry.Proofs.Source.Alone
import DoubleEntry.Proofs.Token.Lexeme

/-! Which texts are account names, and of which parts. The words that a ledger takes for accounts
are fewer than the texts that name one, and both mean the parts they are spelled from. -/
namespace DoubleEntry

open Text

/-- A kind, and at least one segment, with a colon in front of each. -/
structure Spells (text : String) (kind : AccountKind) (segments : List String) : Prop where
  segments_ne_nil : segments ≠ []
  chars : text.toList =
    kind.text.toList ++ segments.flatMap fun segment => accountSeparator :: segment.toList

/-- A word character other than the underscore, and after it word characters and hyphens. -/
def IsPathSegment (segment : String) : Prop :=
  ∃ c cs, segment.toList = c :: cs ∧ isWordChar c = true ∧ c ≠ '_' ∧
    ∀ d ∈ cs, isWordChar d = true ∨ d = '-'

theorem isPathSegment_iff (segment : String) :
    IsPathSegment segment ↔ Lexeme.isSegment segment.toList = true := by
  unfold IsPathSegment
  cases segment.toList with
  | nil => simp [Lexeme.isSegment]
  | cons c cs => simp [Lexeme.isSegment, and_assoc]

namespace AccountName

variable {text : String} {kind : AccountKind} {segments : List String} {a : AccountName}

theorem spells_iff : Spells text a.kind a.segments ↔ a.text = text := by
  have hchars : a.chars = a.kind.text.toList ++
      a.segments.flatMap fun segment => accountSeparator :: segment.toList := by
    rw [chars, joinWith_cons, List.flatMap_map]
  constructor
  · intro h
    rw [AccountName.text, hchars, ← h.chars, String.ofList_toList]
  · rintro rfl
    exact ⟨a.segments_ne_nil, by rw [AccountName.text, String.toList_ofList, hchars]⟩

theorem ofText_text (a : AccountName) : ofText a.text = .ok a := by
  rw [ofText, ofText?_text]

theorem ofText_eq_ok_iff : ofText text = .ok a ↔ a.text = text := by
  constructor
  · intro h
    have h? : ofText? text = some a := by
      unfold ofText at h
      split at h
      · cases h
        assumption
      · contradiction
    have hbind : (AccountKind.ofText? (.ofList (splitAt accountSeparator text.toList).1)).bind
        (fun kind => (ofParts kind
          ((splitAt accountSeparator text.toList).2.map String.ofList)).toOption) = some a := h?
    obtain ⟨kind, hkind, hparts⟩ := Option.bind_eq_some_iff.1 hbind
    obtain ⟨hsame, hsegments⟩ := parts_of_ofParts (toOption_eq_some_iff.1 hparts)
    have hword := congrArg String.toList (AccountKind.text_of_ofText? hkind)
    rw [String.toList_ofList] at hword
    have hpieces : a.segments.map String.toList = (splitAt accountSeparator text.toList).2 := by
      rw [hsegments, List.map_map]
      simp [Function.comp_def]
    rw [AccountName.text, chars, hsame, hword, hpieces, joinWith_splitAt, String.ofList_toList]
  · rintro rfl
    exact a.ofText_text

theorem ofText_eq_error {error : AccountError} (h : ofText text = .error error) :
    error = .invalidText text := by
  unfold ofText at h
  split at h
  · contradiction
  · cases h
    rfl

/-- Parts that make a name, from the way they are spelled. -/
theorem exists_ofText (h : Spells text kind segments)
    (hsegments : ∀ segment ∈ segments, isSegmentName segment = true) :
    ∃ a, ofText text = .ok a ∧ a.kind = kind ∧ a.segments = segments := by
  let a : AccountName := ⟨kind, segments, h.segments_ne_nil, hsegments⟩
  exact ⟨a, ofText_eq_ok_iff.2 (spells_iff (a := a).1 h), rfl, rfl⟩

theorem isSegmentName_iff (segment : String) :
    isSegmentName segment = true ↔ segment ≠ "" ∧ accountSeparator ∉ segment.toList := by
  simp [isSegmentName]

theorem isSegmentName_of_isPathSegment {segment : String} (h : IsPathSegment segment) :
    isSegmentName segment = true := by
  have hname := Lexeme.isSegmentName_of_isSegment ((isPathSegment_iff segment).1 h)
  rwa [String.ofList_toList] at hname

theorem isAccount_iff_spelled : Lexeme.isAccount text.toList = true ↔
    ∃ kind segments, Spells text kind segments ∧ ∀ segment ∈ segments, IsPathSegment segment := by
  constructor
  · intro h
    obtain ⟨a, ha⟩ := Lexeme.exists_account_of_isAccount h
    rw [String.ofList_toList] at ha
    obtain rfl := ofText_eq_ok_iff.1 ha
    obtain ⟨_, hsegments⟩ := (Lexeme.isAccount_iff _).1 h
    rw [AccountName.text, String.toList_ofList, a.splitAt_chars] at hsegments
    refine ⟨a.kind, a.segments, spells_iff.2 rfl, fun segment hsegment => ?_⟩
    exact (isPathSegment_iff segment).2 (hsegments _ (List.mem_map.2 ⟨segment, hsegment, rfl⟩))
  · rintro ⟨kind, segments, h, hsegments⟩
    obtain ⟨a, ha, rfl, rfl⟩ :=
      exists_ofText h fun segment hmem => isSegmentName_of_isPathSegment (hsegments segment hmem)
    rw [← ofText_eq_ok_iff.1 ha, AccountName.text, String.toList_ofList]
    refine Lexeme.isAccount_chars (List.all_eq_true.2 fun segment hmem => ?_)
    exact (isPathSegment_iff segment).1 (hsegments segment hmem)

end AccountName

/-! ## A text that is one word -/

section

variable {cs : List Char} (h : ∀ c ∈ cs, endsWord c = false)

include h

theorem isGap_of_word {c : Char} (hc : c ∈ cs) : isGap c = false := by
  have hends := h c hc
  simp only [endsWord, Bool.or_eq_false_iff] at hends
  exact hends.1.1

theorem firstWord_of_word : firstWord cs = cs :=
  List.takeWhile_eq_self_iff.2 fun c hc => by
    rw [h c hc]
    rfl

theorem skipGap_of_word (number start : Nat) :
    (Line.mk number start cs).cursor.skipGap = (Line.mk number start cs).cursor := by
  have hnone : cs.takeWhile isGap = [] := by
    cases cs with
    | nil => rfl
    | cons c cs =>
      have hc : ¬ isGap c = true := Bool.eq_false_iff.1 (isGap_of_word h List.mem_cons_self)
      rw [List.takeWhile_cons_of_neg hc]
  change (Line.mk number start cs).cursor.advance (cs.takeWhile isGap).length = _
  rw [hnone]
  rfl

theorem firstPlace_of_word (number start : Nat) :
    firstPlace (Line.mk number start cs) [] = ((Line.mk number start cs).cursor, []) := by
  unfold firstPlace
  split
  · -- without gaps and comments, a line is vacant only if it is empty
    rename_i hvacant
    unfold Line.isVacant Cursor.atLineEnd at hvacant
    rw [skipGap_of_word h] at hvacant
    cases cs with
    | nil => rfl
    | cons c cs =>
      have hmark : c = commentMark := by simpa [Cursor.rest, Line.cursor] using hvacant
      have hends := h c List.mem_cons_self
      rw [hmark] at hends
      contradiction
  · rw [skipGap_of_word h]

end

/-- A text without blanks and comments is read as an account exactly if the whole of it is one. -/
theorem Source.token_account {text : String} (h : ∀ c ∈ text.toList, endsWord c = false)
    (name : Option String) {t : Token} :
    (ofText text name).token .account = .ok t ↔
      Lexeme.isAccount text.toList = true ∧ t = .leaf .account text ⟨1, 1⟩ := by
  have hfeed : '\n' ∉ text.toList := fun hc => by simpa [endsWord] using h _ hc
  let start : Cursor := (Line.mk 1 0 text.toList).cursor
  have hread : Lexeme.account.read? start.rest =
      if Lexeme.isAccount text.toList then some text.toList else none := by
    change Lexeme.account.read? text.toList = _
    rw [Lexeme.read?, if_neg (by decide), firstWord_of_word h]
    rfl
  have hend : (start.advance text.toList.length).atLineEnd = true := by
    apply Scan.atLineEnd_of_nil
    rw [Cursor.rest_advance]
    exact List.drop_length
  rw [token_of_line_eq_ok_iff hfeed (by decide) rfl, firstPlace_of_word h, Scan.lexeme, hread]
  cases Lexeme.isAccount text.toList with
  | false =>
    refine iff_of_false ?_ fun hok => Bool.false_ne_true hok.1
    rintro ⟨_, hok, _⟩
    cases hok
  | true =>
    rw [and_iff_right rfl]
    constructor
    · rintro ⟨stop, hok, _⟩
      cases hok
      rw [String.ofList_toList]
      rfl
    · rintro rfl
      refine ⟨start.advance text.toList.length, ?_, hend⟩
      change Except.ok (Token.leaf .account (.ofList text.toList) ⟨1, 1⟩, _) = _
      rw [String.ofList_toList]

namespace AccountName

/-- A word of a ledger is read as an account if it spells a kind and segments of word characters and
hyphens, and it means those. A text names an account if it spells a kind and segments without
colons; it is then the name of that account, and every name is read as its account. -/
theorem read_as_spelled :
    (∀ (text : String) (name : Option String),
      (∀ c ∈ text.toList, c ≠ ' ' ∧ c ≠ '\t' ∧ c ≠ '\n' ∧ c ≠ ';') →
        ((∃ t, (Source.ofText text name).token .account = .ok t) ↔
          ∃ kind segments, Spells text kind segments ∧
            ∀ segment ∈ segments, IsPathSegment segment) ∧
        ∀ t, (Source.ofText text name).token .account = .ok t →
          t = .leaf .account text ⟨1, 1⟩ ∧
          ∀ kind segments, Spells text kind segments →
            (∀ segment ∈ segments, IsPathSegment segment) →
            ∃ a, ofToken t = .ok a ∧ a.kind = kind ∧ a.segments = segments) ∧
    (∀ text, (∃ a, ofText text = .ok a) ↔
      ∃ kind segments, Spells text kind segments ∧
        ∀ segment ∈ segments, segment ≠ "" ∧ ':' ∉ segment.toList) ∧
    (∀ text error, ofText text = .error error → error = .invalidText text) ∧
    (∀ text a, ofText text = .ok a → a.text = text ∧ Spells text a.kind a.segments) ∧
    ∀ a, ofText a.text = .ok a := by
  refine ⟨fun text name htext => ?_, fun text => ⟨?_, ?_⟩, fun text error => ofText_eq_error,
    fun text a h => ?_, ofText_text⟩
  · have hword : ∀ c ∈ text.toList, endsWord c = false := by
      intro c hc
      simpa [endsWord, isGap, commentMark, and_assoc] using htext c hc
    simp only [Source.token_account hword]
    rw [← isAccount_iff_spelled]
    refine ⟨by simp, ?_⟩
    rintro t ⟨_, rfl⟩
    refine ⟨rfl, fun kind segments h hsegments => ?_⟩
    obtain ⟨a, ha, hkind, hsame⟩ :=
      exists_ofText h fun segment hmem => isSegmentName_of_isPathSegment (hsegments segment hmem)
    exact ⟨a, mapError_eq_ok_iff.2 ha, hkind, hsame⟩
  · rintro ⟨a, h⟩
    exact ⟨a.kind, a.segments, spells_iff.2 (ofText_eq_ok_iff.1 h),
      fun segment hmem => (isSegmentName_iff segment).1 (a.segments_valid segment hmem)⟩
  · rintro ⟨kind, segments, h, hsegments⟩
    obtain ⟨a, ha, _⟩ :=
      exists_ofText h fun segment hmem => (isSegmentName_iff segment).2 (hsegments segment hmem)
    exact ⟨a, ha⟩
  · have htext := ofText_eq_ok_iff.1 h
    exact ⟨htext, spells_iff.2 htext⟩

def savings : AccountName :=
  ⟨.assets, ["Caixa-Econômica", "2024"], by decide, by decide +kernel⟩

theorem read_as_spelled_savings :
    (∀ c ∈ savings.text.toList, c ≠ ' ' ∧ c ≠ '\t' ∧ c ≠ '\n' ∧ c ≠ ';') ∧
    Spells savings.text .assets ["Caixa-Econômica", "2024"] ∧
    (∀ segment ∈ ["Caixa-Econômica", "2024"], IsPathSegment segment) ∧
    ∃ t a, (Source.ofText savings.text none).token .account = .ok t ∧ t.text = savings.text ∧
      ofToken t = .ok a ∧ a.kind = .assets ∧ a.segments = ["Caixa-Econômica", "2024"] ∧
      ofText savings.text = .ok a ∧ a.text = savings.text := by
  obtain ⟨hread, _, _, hnamed, _⟩ := read_as_spelled
  have hall :
      (savings.text.toList.all fun c => c ≠ ' ' ∧ c ≠ '\t' ∧ c ≠ '\n' ∧ c ≠ ';') = true := by
    decide +kernel
  have hword : ∀ c ∈ savings.text.toList, c ≠ ' ' ∧ c ≠ '\t' ∧ c ≠ '\n' ∧ c ≠ ';' :=
    fun c hc => of_decide_eq_true (List.all_eq_true.1 hall c hc)
  have hspells : Spells savings.text .assets ["Caixa-Econômica", "2024"] :=
    spells_iff (a := savings).2 rfl
  have hsegments : ∀ segment ∈ ["Caixa-Econômica", "2024"], IsPathSegment segment := by
    simp only [isPathSegment_iff]
    decide +kernel
  obtain ⟨hiff, hmeans⟩ := hread savings.text none hword
  obtain ⟨t, ht⟩ := hiff.2 ⟨_, _, hspells, hsegments⟩
  obtain ⟨rfl, hparts⟩ := hmeans t ht
  obtain ⟨a, ha, hkind, hsame⟩ := hparts _ _ hspells hsegments
  have hok : ofText savings.text = .ok a := mapError_eq_ok_iff.1 ha
  exact ⟨hword, hspells, hsegments, _, a, ht, rfl, ha, hkind, hsame, hok,
    (hnamed savings.text a hok).1⟩

end AccountName
end DoubleEntry
