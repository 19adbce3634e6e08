import DoubleEntry.Proofs.Token.Directive
import DoubleEntry.Token.Place

/-! Scans read in front of the end of a line as they do in front of any other. A scan that needs to
see more than it reads asks for room, and the scan after it has to move as far. -/
namespace DoubleEntry

open Text

/-! ## Cursors -/

/-- The text is ahead, with nothing but a gap and a comment behind it. -/
def Cursor.Faces (c : Cursor) (front : List Char) : Prop :=
  ∃ tail, endsLine tail = true ∧ c.rest = front ++ tail

/-- The second cursor is as far right, so many lines further up, and faces the same text. -/
structure Cursor.SharesFront (lines : Nat) (front : List Char) (c c' : Cursor) : Prop where
  faces : c.Faces front
  faces' : c'.Faces front
  column : c'.column = c.column
  number : c'.line.number = c.line.number - lines

namespace Cursor

variable {lines : Nat} {text front : List Char} {c c' : Cursor}

theorem Faces.advance (h : c.Faces (text ++ front)) : (c.advance text.length).Faces front := by
  obtain ⟨tail, htail, hrest⟩ := h
  refine ⟨tail, htail, ?_⟩
  rw [rest_advance, hrest, List.append_assoc, List.drop_left]

theorem Faces.leads (h : c.Faces (text ++ front)) : text <+: c.rest := by
  obtain ⟨tail, _, hrest⟩ := h
  rw [hrest, List.append_assoc]
  exact List.prefix_append _ _

theorem Faces.atLineEnd (h : c.Faces front) : c.atLineEnd = endsLine front := by
  obtain ⟨tail, htail, hrest⟩ := h
  rw [atLineEnd_eq, hrest, endsLine_append htail]

theorem advance_append (c : Cursor) (text more : List Char) :
    (c.advance text.length).advance more.length = c.advance (text ++ more).length := by
  simp [advance, Nat.add_assoc]

/-- The text up to a place ahead. -/
theorem textTo_advance (h : text <+: c.rest) : c.textTo (c.advance text.length) = .ofList text := by
  unfold textTo advance
  rw [Nat.add_sub_cancel_left, ← List.prefix_iff_eq_take.1 h]

namespace SharesFront

theorem advance (h : c.SharesFront lines (text ++ front) c') :
    (c.advance text.length).SharesFront lines front (c'.advance text.length) :=
  ⟨h.faces.advance, h.faces'.advance, congrArg (· + text.length) h.column, h.number⟩

theorem position (h : c.SharesFront lines front c') :
    c'.position = { c.position with line := c.position.line - lines } := by
  unfold Cursor.position
  rw [h.number, h.column]

theorem atLineEnd (h : c.SharesFront lines front c') : c'.atLineEnd = c.atLineEnd := by
  rw [h.faces.atLineEnd, h.faces'.atLineEnd]

/-- The gaps are the same if they end inside the text. -/
theorem takeGap (h : c.SharesFront lines front c')
    (hlength : (c.rest.takeWhile isGap).length < front.length) :
    c'.rest.takeWhile isGap = c.rest.takeWhile isGap := by
  obtain ⟨tail, _, hrest⟩ := h.faces
  obtain ⟨tail', _, hrest'⟩ := h.faces'
  rw [hrest] at hlength ⊢
  rw [hrest', takeWhile_append_of_length_lt hlength]

end SharesFront

end Cursor

namespace Scan

variable {α α' β β' : Type} {lines count room last : Nat} {f : α → α'} {g : β → β'}

/-! ## Rules -/

/-- Between the cursors are so many characters at least. The scan moves over them further up, with
this result, if so many are still to come before the gap and the comment at the end of the line. -/
def Repeats (lines count room : Nat) (m : Scan α) (a : α) (c next : Cursor) : Prop :=
  ∃ text, text <+: c.rest ∧ count ≤ text.length ∧ next = c.advance text.length ∧
    ∀ (front : List Char) (c' : Cursor), room ≤ front.length →
      c.SharesFront lines (text ++ front) c' → m c' = .ok (a, c'.advance text.length)

/-- Where the first scan moves, the second moves further up, and its result is a function of the
first one. -/
def Rereads (lines count room : Nat) (f : α → α') (m : Scan α) (m' : Scan α') : Prop :=
  ∀ (c next : Cursor) (a : α), m c = .ok (a, next) → Repeats lines count room m' (f a) c next

theorem Repeats.stay {m : Scan α} {a : α} {c : Cursor}
    (h : ∀ (front : List Char) (c' : Cursor), c.SharesFront lines front c' → m c' = .ok (a, c')) :
    Repeats lines 0 room m a c c :=
  ⟨[], List.nil_prefix, Nat.le_refl _, rfl, fun front c' _ hc => h front c' hc⟩

/-- The room that the first scan needs has to be left by the second. -/
theorem Repeats.andThen {moved : Nat} {m : Scan α} {k : α → Scan β} {a : α} {b : β}
    {c middle next : Cursor} (hm : Repeats lines count room m a c middle)
    (hk : Repeats lines moved last (k a) b middle next) (hroom : room ≤ moved + last) :
    Repeats lines count last (m >>= k) b c next := by
  obtain ⟨text, ⟨rest, hrest⟩, hcount, rfl, hfirst⟩ := hm
  obtain ⟨more, hmore, hmoved, rfl, hsecond⟩ := hk
  rw [Cursor.rest_advance, ← hrest, List.drop_left] at hmore
  refine ⟨text ++ more, ?_, ?_, c.advance_append text more, fun front c' hlast hc => ?_⟩
  · rw [← hrest]
    exact (List.prefix_append_right_inj text).2 hmore
  · rw [List.length_append]
    exact Nat.le_trans hcount (Nat.le_add_right _ _)
  · have hlength : room ≤ (more ++ front).length := by
      rw [List.length_append]
      omega
    rw [List.append_assoc] at hc
    rw [bind_apply, hfirst _ _ hlength hc]
    simp only
    rw [hsecond front _ hlast hc.advance, Cursor.advance_append]

theorem Rereads.weaken {m : Scan α} {m' : Scan α'} (h : Rereads lines count room f m m') :
    Rereads lines 0 room f m m' := by
  intro c next a hrun
  obtain ⟨text, hfront, _, hrest⟩ := h c next a hrun
  exact ⟨text, hfront, Nat.zero_le _, hrest⟩

theorem rereads_pure {a : α} {a' : α'} (h : f a = a') :
    Rereads lines 0 room f (pure a) (pure a') := by
  intro c next b hrun
  rw [pure_apply] at hrun
  cases hrun
  exact .stay fun front c' _ => by rw [h, pure_apply]

theorem Rereads.andThen {moved : Nat} {m : Scan α} {m' : Scan α'} {k : α → Scan β}
    {k' : α' → Scan β'} (hm : Rereads lines count room f m m')
    (hk : ∀ a, Rereads lines moved last g (k a) (k' (f a))) (hroom : room ≤ moved + last) :
    Rereads lines count last g (m >>= k) (m' >>= k') := by
  intro c next b hrun
  rw [bind_apply] at hrun
  cases h : m c with
  | error stray =>
    rw [h] at hrun
    contradiction
  | ok result =>
    obtain ⟨a, middle⟩ := result
    rw [h] at hrun
    exact (hm c middle a h).andThen (hk a middle next b hrun) hroom

theorem Rereads.bind {m : Scan α} {m' : Scan α'} {k : α → Scan β} {k' : α' → Scan β'}
    (hm : Rereads lines count room f m m') (hk : ∀ a, Rereads lines room last g (k a) (k' (f a))) :
    Rereads lines count last g (m >>= k) (m' >>= k') :=
  hm.andThen hk (Nat.le_add_right _ _)

theorem rereads_gap (what : String) : Rereads lines 1 1 id (gap what) (gap what) := by
  intro c next a hrun
  unfold gap at hrun
  split at hrun
  · rename_i hgap
    cases hrun
    rw [← takeWhile_ne_nil_iff] at hgap
    refine ⟨_, List.takeWhile_prefix _, List.length_pos_iff.2 hgap, rfl, ?_⟩
    intro front c' hroom hc
    -- without room the gap would go on behind the text
    have hsame : c'.rest.takeWhile isGap = c.rest.takeWhile isGap := by
      refine hc.takeGap ?_
      rw [List.length_append]
      omega
    unfold gap
    rw [if_pos (takeWhile_ne_nil_iff.1 (hsame ▸ hgap)), Cursor.skipGap, hsame]
  · contradiction

theorem rereads_keyword (word : String) :
    Rereads lines 0 1 id (keyword word) (keyword word) := by
  intro c next a hrun
  unfold keyword at hrun
  split at hrun
  · rename_i hword
    cases hrun
    have hfront : word.toList <+: c.rest := by
      rw [startsWith, Bool.and_eq_true, List.isPrefixOf_iff_prefix] at hword
      exact hword.1
    refine ⟨word.toList, hfront, Nat.zero_le _, by rw [String.length_toList], ?_⟩
    intro front c' hroom hc
    obtain ⟨tail, _, hrest⟩ := hc.faces
    obtain ⟨tail', _, hrest'⟩ := hc.faces'
    have hlength : word.length < (word.toList ++ front).length := by
      rw [List.length_append, String.length_toList]
      omega
    unfold keyword
    rw [hrest, startsWith_append hlength] at hword
    rw [hrest', startsWith_append hlength, if_pos hword, String.length_toList]
  · contradiction

theorem rereads_lexeme (kind : Lexeme) :
    Rereads lines 1 0 (·.movedUp lines) (lexeme kind) (lexeme kind) := by
  intro c next t hrun
  unfold lexeme at hrun
  split at hrun
  · contradiction
  · rename_i text hread
    cases hrun
    obtain ⟨hfront, front, last, hconcat, -⟩ := Lexeme.read?_concat hread
    refine ⟨text, hfront, by simp [hconcat], rfl, fun more c' _ hc => ?_⟩
    obtain ⟨tail, htail, hrest⟩ := hc.faces
    obtain ⟨tail', htail', hrest'⟩ := hc.faces'
    have hlength : text.length ≤ (text ++ more).length := by simp
    rw [hrest] at hread
    unfold lexeme
    rw [hrest', Lexeme.read?_end htail' htail hlength hread, hc.position]
    rfl

theorem rereads_node {inner inner' : Scan (List Token)} (rule : Rule)
    (h : Rereads lines count 0 (allMovedUp lines) inner inner') :
    Rereads lines count 0 (·.movedUp lines) (node rule inner) (node rule inner') := by
  intro c next t hrun
  unfold node at hrun
  simp only [bind_apply, get_apply] at hrun
  split at hrun
  · contradiction
  · rename_i children middle hchildren
    cases hrun
    obtain ⟨text, hfront, hcount, rfl, hreread⟩ := h c _ children hchildren
    refine ⟨text, hfront, hcount, rfl, fun front c' hroom hc => ?_⟩
    unfold node
    simp only [bind_apply, get_apply, hreread front c' hroom hc, nodeFrom]
    rw [Cursor.textTo_advance hc.faces.leads, Cursor.textTo_advance hc.faces'.leads, hc.position]
    rfl

theorem rereads_isAtLineEnd : Rereads lines 0 0 id isAtLineEnd isAtLineEnd := by
  intro c next a hrun
  cases hrun
  refine .stay fun front c' hc => ?_
  unfold isAtLineEnd
  rw [hc.atLineEnd]
  rfl

theorem rereads_priceFollows : Rereads lines 0 0 id priceFollows priceFollows := by
  intro c next follows hrun
  have hrest (c : Cursor) : priceFollows c =
      if c.rest.head?.any isGap = true ∧ firstWord (c.rest.dropWhile isGap) = [priceMark] then
        .ok (true, c.skipGap.advance 1)
      else .ok (false, c) := by
    unfold priceFollows
    simp only [Cursor.rest_skipGap, Bool.and_eq_true, decide_eq_true_eq]
  -- what is looked at ends where the texts stop being the same, or before
  have hsame {front : List Char} {c' : Cursor} (hc : c.SharesFront lines front c') :
      (c'.rest.head?.any isGap = true ∧ firstWord (c'.rest.dropWhile isGap) = [priceMark]) ↔
        c.rest.head?.any isGap = true ∧ firstWord (c.rest.dropWhile isGap) = [priceMark] := by
    obtain ⟨tail, htail, hrest⟩ := hc.faces
    obtain ⟨tail', htail', hrest'⟩ := hc.faces'
    rw [hrest, hrest', priceAhead_append htail, priceAhead_append htail']
  rw [hrest] at hrun
  split at hrun
  · rename_i hprice
    cases hrun
    have hmark : [priceMark] <+: c.rest.dropWhile isGap := by
      rw [← hprice.2]
      exact List.takeWhile_prefix _
    obtain ⟨rest, hrestMark⟩ := hmark
    refine ⟨c.rest.takeWhile isGap ++ [priceMark], ⟨rest, ?_⟩, Nat.zero_le _, ?_, ?_⟩
    · rw [List.append_assoc, hrestMark, List.takeWhile_append_dropWhile]
    · exact c.advance_append (c.rest.takeWhile isGap) [priceMark]
    · intro front c' _ hc
      rw [hrest, if_pos ((hsame hc).2 hprice), Cursor.skipGap, hc.takeGap (by simp),
        ← Cursor.advance_append]
      rfl
  · rename_i hprice
    cases hrun
    refine .stay fun front c' hc => ?_
    rw [hrest, if_neg (mt (hsame hc).1 hprice)]
    rfl

/-! ## The scans of the grammar -/

theorem rereads_amount : Rereads lines 1 0 (·.movedUp lines) amount amount := by
  unfold amount
  apply rereads_node
  refine (rereads_lexeme .nominal).bind fun nominal => (rereads_gap _).weaken.bind fun _ => ?_
  exact (rereads_lexeme .currency).bind fun currency => rereads_pure rfl

theorem rereads_amountWithPrice :
    Rereads lines 1 0 (·.movedUp lines) amountWithPrice amountWithPrice := by
  unfold amountWithPrice
  apply rereads_node
  refine rereads_amount.bind fun amount => rereads_priceFollows.bind fun follows => ?_
  cases follows with
  | false => exact rereads_pure rfl
  | true =>
    refine (rereads_gap _).weaken.bind fun _ => ?_
    exact rereads_amount.bind fun price => rereads_pure rfl

theorem rereads_header : Rereads lines 1 0 (·.movedUp lines) header header := by
  unfold header
  apply rereads_node
  refine (rereads_lexeme .flag).bind fun flag => (rereads_gap _).weaken.bind fun _ => ?_
  refine (rereads_lexeme .string).bind fun first => rereads_isAtLineEnd.bind fun atEnd => ?_
  cases atEnd with
  | true => exact rereads_pure rfl
  | false =>
    refine (rereads_gap _).weaken.bind fun _ => ?_
    exact (rereads_lexeme .string).bind fun second => rereads_pure rfl

theorem rereads_furtherString :
    Rereads lines 1 0 (·.movedUp lines) furtherString furtherString := by
  unfold furtherString
  exact (rereads_gap _).bind fun _ => rereads_lexeme .string

theorem furtherStrings_of_not_atLineEnd {c : Cursor} (h : ¬ c.atLineEnd = true) :
    furtherStrings c = (furtherString >>= fun first =>
      (furtherStrings : Scan (List Token)) >>= fun others => pure (first :: others)) c := by
  rw [furtherStrings, if_neg h, bind_apply]
  split
  · rename_i hstring
    rw [hstring]
  · rename_i token next hstring
    simp only [hstring, bind_apply, pure_apply]
    cases furtherStrings next <;> rfl

theorem rereads_furtherStrings :
    Rereads lines 0 0 (allMovedUp lines) furtherStrings furtherStrings := by
  intro c next ts hrun
  fun_induction furtherStrings c generalizing next ts with
  | case1 c hend =>
    cases hrun
    refine .stay fun front c' hc => ?_
    rw [furtherStrings, if_pos (hc.atLineEnd.trans hend)]
    rfl
  | case2 c hend stray hstray => contradiction
  | case3 c hend token middle hstring _ stray hrest ih => contradiction
  | case4 c hend token middle hstring _ tokens stop hrest ih =>
    cases hrun
    have hadd : Repeats lines 0 0 (pure (allMovedUp lines (token :: tokens)))
        (allMovedUp lines (token :: tokens)) stop stop := .stay fun _ c' _ => pure_apply _ c'
    have hothers := (ih stop tokens hrest).andThen
      (k := fun others => pure (token.movedUp lines :: others)) hadd (Nat.le_refl _)
    have hall := (rereads_furtherString c middle token hstring).andThen
      (k := fun first => furtherStrings >>= fun others => pure (first :: others)) hothers
      (Nat.le_refl _)
    obtain ⟨text, hfront, _, hstop, hread⟩ := hall
    refine ⟨text, hfront, Nat.zero_le _, hstop, fun front c' hroom hc => ?_⟩
    rw [furtherStrings_of_not_atLineEnd (hc.atLineEnd ▸ hend)]
    exact hread front c' hroom hc

theorem rereads_arguments (rule : Rule) :
    Rereads lines 1 0 (allMovedUp lines) (arguments rule) (arguments rule) := by
  unfold arguments
  split
  · refine (rereads_gap _).bind fun _ => (rereads_lexeme .string).bind fun first => ?_
    exact rereads_furtherStrings.bind fun others => rereads_pure rfl
  · refine (rereads_gap _).bind fun _ => (rereads_lexeme .account).bind fun target => ?_
    refine (rereads_gap _).weaken.bind fun _ => ?_
    exact (rereads_lexeme .account).bind fun source => rereads_pure rfl
  · refine (rereads_gap _).bind fun _ => (rereads_lexeme .account).bind fun account => ?_
    exact (rereads_gap _).weaken.bind fun _ => rereads_amount.bind fun amount => rereads_pure rfl
  · refine (rereads_gap _).bind fun _ => (rereads_lexeme .currency).bind fun currency => ?_
    exact (rereads_gap _).weaken.bind fun _ => rereads_amount.bind fun amount => rereads_pure rfl
  · refine (rereads_gap _).bind fun _ => ?_
    exact (rereads_lexeme .account).bind fun account => rereads_pure rfl

/-- The word of a statement. A flag is not read. -/
def statementWord : Scan Rule := fun c =>
  match statementAhead? c.rest with
  | none => .error ⟨c.offset, .statementKeyword⟩
  | some (word, rule) => .ok (rule, c.advance word.length)

theorem opening_none : opening none = (do
    let date ← lexeme .date
    gap "the statement keyword"
    let rule ← statementWord
    return (date, rule)) := by
  unfold opening
  refine congrArg (lexeme .date >>= ·) (funext fun date => ?_)
  refine congrArg (gap _ >>= ·) (funext fun _ => funext fun c => ?_)
  simp only [bind_apply, get_apply, statementWord]
  cases statementAhead? c.rest <;> rfl

theorem rereads_statementWord : Rereads lines 0 1 id statementWord statementWord := by
  intro c next rule hrun
  unfold statementWord at hrun
  split at hrun
  · contradiction
  · rename_i word found hahead
    cases hrun
    have hfront : word.toList <+: c.rest := by
      rw [statementAhead?_eq_some_iff] at hahead
      rcases hahead with ⟨_, hstarts⟩ | ⟨_, rfl, _⟩
      · rw [startsWith, Bool.and_eq_true, List.isPrefixOf_iff_prefix] at hstarts
        exact hstarts.1
      · exact List.nil_prefix
    refine ⟨word.toList, hfront, Nat.zero_le _, by rw [String.length_toList], ?_⟩
    intro front c' hroom hc
    obtain ⟨tail, htail, hrest⟩ := hc.faces
    obtain ⟨tail', htail', hrest'⟩ := hc.faces'
    have hlength : word.length < (word.toList ++ front).length := by
      rw [List.length_append, String.length_toList]
      omega
    have hahead' : statementAhead? c'.rest = some (word, rule) := by
      rw [statementAhead?_eq_some_iff] at hahead ⊢
      rw [hrest, startsWith_append hlength,
        firstWord_append_of_endsHere (endsHere_of_endsLine htail)] at hahead
      rwa [hrest', startsWith_append hlength,
        firstWord_append_of_endsHere (endsHere_of_endsLine htail')]
    unfold statementWord
    rw [hahead', String.length_toList]
    rfl

theorem rereads_opening_none :
    Rereads lines 1 1 (Prod.map (·.movedUp lines) id) (opening none) (opening none) := by
  rw [opening_none]
  refine (rereads_lexeme .date).bind fun date => ?_
  have hrule : Rereads lines 0 1 (Prod.map (·.movedUp lines) id)
      (statementWord >>= fun rule => pure (date, rule))
      (statementWord >>= fun rule => pure (date.movedUp lines, rule)) :=
    rereads_statementWord.andThen (fun rule => rereads_pure rfl) (Nat.le_refl 1)
  exact (rereads_gap _).weaken.andThen (fun _ => hrule) (Nat.le_refl 1)

theorem rereads_opening (rule : Rule) :
    Rereads lines 1 1 (Prod.map (·.movedUp lines) id) (opening rule) (opening rule) := by
  intro c next opened hrun
  obtain ⟨date, found⟩ := opened
  obtain ⟨rfl, hopened⟩ := opening_some_eq_ok_iff.1 hrun
  obtain ⟨text, hfront, hcount, hnext, hread⟩ := rereads_opening_none c next _ hopened
  exact ⟨text, hfront, hcount, hnext, fun front c' hroom hc =>
    opening_some_eq_ok_iff.2 ⟨rfl, hread front c' hroom hc⟩⟩

theorem rereads_transactionHead :
    Rereads lines 1 0 (Prod.map (·.movedUp lines) (·.movedUp lines)) transactionHead
      transactionHead := by
  unfold transactionHead
  refine (rereads_opening _).bind fun opened => ?_
  exact rereads_header.bind fun header => rereads_pure rfl

/-! ## Whole lines -/

/-- What is read is all there is on the line but a gap and a comment, and it is read again further
up. -/
def RereadsLine (lines : Nat) (scan : Scan Token) : Prop :=
  ∀ (c next : Cursor) (t : Token), scan c = .ok (t, next) →
    c.Faces t.text.toList ∧ ∀ c', c.SharesFront lines t.text.toList c' →
      ∃ next', scan c' = .ok (t.movedUp lines, next')

theorem rereadsLine_lineOf {inner : Scan (List Token)} (rule : Rule)
    (h : Rereads lines 0 0 (allMovedUp lines) inner inner) :
    RereadsLine lines (lineOf rule inner) := by
  intro c next t hrun
  obtain ⟨children, middle, hinner, hend, rfl, rfl⟩ := lineOf_eq_ok_iff.1 hrun
  obtain ⟨text, hfront, _, rfl, hread⟩ := h c middle children hinner
  rw [Cursor.textTo_advance hfront, String.toList_ofList]
  have hsplit := (List.prefix_iff_eq_append.1 hfront).symm
  refine ⟨⟨c.rest.drop text.length, ?_, hsplit⟩, fun c' hc => ?_⟩
  · rw [← Cursor.rest_advance, ← Cursor.atLineEnd_eq, hend]
  · rw [← List.append_nil text] at hc
    refine ⟨_, lineOf_eq_ok_iff.2 ⟨_, _, hread [] c' (Nat.zero_le _) hc, ?_, ?_, rfl⟩⟩
    · rw [hc.advance.faces'.atLineEnd]
      rfl
    · rw [Cursor.textTo_advance hc.faces'.leads, hc.position]
      rfl

theorem rereadsLine_option : RereadsLine lines option := by
  apply rereadsLine_lineOf
  refine (rereads_keyword _).bind fun _ => (rereads_gap _).bind fun _ => ?_
  refine (rereads_lexeme .string).bind fun key => (rereads_gap _).weaken.bind fun _ => ?_
  exact (rereads_lexeme .string).bind fun value => rereads_pure rfl

theorem rereadsLine_includeFile : RereadsLine lines includeFile := by
  apply rereadsLine_lineOf
  refine (rereads_keyword _).bind fun _ => (rereads_gap _).bind fun _ => ?_
  exact (rereads_lexeme .string).bind fun path => rereads_pure rfl

theorem rereadsLine_unit : RereadsLine lines unit := by
  apply rereadsLine_lineOf
  refine (rereads_keyword _).bind fun _ => (rereads_gap _).bind fun _ => ?_
  exact (rereads_lexeme .currency).bind fun code => rereads_pure rfl

theorem rereadsLine_posting : RereadsLine lines posting := by
  apply rereadsLine_lineOf
  refine (rereads_lexeme .account).weaken.bind fun account => ?_
  refine rereads_isAtLineEnd.bind fun atEnd => ?_
  cases atEnd with
  | true => exact rereads_pure rfl
  | false =>
    refine (rereads_gap _).weaken.bind fun _ => ?_
    exact rereads_amountWithPrice.bind fun amount => rereads_pure rfl

theorem rereadsLine_datedLine (rule : Rule) : RereadsLine lines (datedLine rule) := by
  apply rereadsLine_lineOf
  refine (rereads_opening rule).weaken.bind fun opened => ?_
  exact (rereads_arguments rule).bind fun children => rereads_pure rfl

theorem rereadsLine_of_keywordLines {word : String} {scan : Scan Token}
    (h : (word, scan) ∈ keywordLines) : RereadsLine lines scan := by
  simp only [keywordLines, List.mem_cons, List.not_mem_nil, or_false, Prod.mk.injEq] at h
  rcases h with ⟨-, rfl⟩ | ⟨-, rfl⟩ | ⟨-, rfl⟩
  · exact rereadsLine_option
  · exact rereadsLine_includeFile
  · exact rereadsLine_unit

end Scan
end DoubleEntry
