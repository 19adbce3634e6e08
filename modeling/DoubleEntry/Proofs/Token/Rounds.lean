import DoubleEntry.Proofs.Token.Alone
import DoubleEntry.Token.Stage

/-! Reading in parts. What one call reads is read in rounds: a directive and those below it, a
string and those behind it, a posting and those below it. -/
namespace DoubleEntry

open Text

/-! ## Lines that are left -/

/-- Nothing but gaps and comments on the lines. -/
def vacantOnly (left : List Line) : Except Stray Unit :=
  match left.find? (!·.isVacant) with
  | none => .ok ()
  | some line => .error ⟨line.cursor.skipGap.offset, .textEnd⟩

theorem requireEnd_of_atLineEnd {c : Cursor} (h : c.atLineEnd = true) (below : List Line) :
    requireEnd c below = vacantOnly below := by
  unfold requireEnd
  rw [if_pos h]
  rfl

theorem requireEnd_cursor (line : Line) (below : List Line) :
    requireEnd line.cursor below = vacantOnly (line :: below) := by
  cases hvacant : line.isVacant with
  | true =>
    rw [requireEnd_of_atLineEnd hvacant, vacantOnly, vacantOnly,
      List.find?_cons_of_neg (by simp [hvacant])]
  | false =>
    have hend : line.cursor.atLineEnd = false := hvacant
    rw [vacantOnly, List.find?_cons_of_pos (by simp [hvacant]), requireEnd, if_neg (by simp [hend])]

theorem directives_cons {line : Line} (h : line.isVacant = false) (below : List Line) :
    directives (line :: below) =
      directive line below >>= fun found => (found.1 :: ·) <$> directives found.2 := by
  cases hdirective : directive line below with
  | ok found => exact directives_of_directive h hdirective
  | error stray =>
    rw [directives, if_neg (by simp [h])]
    split
    · rename_i other hother
      rw [hdirective] at hother
      cases hother
      rfl
    · rename_i hother
      rw [hdirective] at hother
      contradiction

/-- The first place that is not vacant from a cursor on. -/
def placeFrom (c : Cursor) (below : List Line) : Cursor × List Line :=
  if c.atLineEnd then
    match below with
    | [] => (c.toLineEnd, [])
    | next :: left => firstPlace next left
  else (c.skipGap, below)

theorem firstPlace_eq (line : Line) (below : List Line) :
    firstPlace line below = placeFrom line.cursor below := by
  cases below with
  | nil =>
    unfold firstPlace placeFrom Line.isVacant
    split <;> rfl
  | cons next below =>
    unfold placeFrom
    rw [firstPlace]
    rfl

/-! ## Transactions -/

/-- The postings below a header, and the transaction that they make up. -/
def transactionOver (start : Cursor) (date header : Token) (below : List Line) :
    Except Stray Token :=
  postingsOf (below.takeWhile (·.isIndented)) >>= fun postings =>
    if postings = [] then
      .error ⟨offsetBelow start.line (below.takeWhile (·.isIndented))
        (below.dropWhile (·.isIndented)), .posting⟩
    else .ok (transactionToken start (below.takeWhile (·.isIndented)) date header postings)

theorem Text.trimEnd_append_blanks {cs blanks : List Char} (h : ∀ c ∈ blanks, isBlank c = true) :
    trimEnd (cs ++ blanks) = trimEnd cs := by
  unfold trimEnd
  rw [List.reverse_append, List.dropWhile_append_of_pos fun c hc => h c (List.mem_reverse.1 hc)]

theorem postingsOf_singleton {line : Line} (h : line.isComment = false) :
    postingsOf [line] = (fun found => [found.1]) <$> Scan.posting line.cursor.skipGap := by
  have hfilter : [line].filter (!·.isComment) = [line] := List.filter_cons_of_pos (by simp [h])
  unfold postingsOf
  rw [hfilter, List.mapM_cons]
  cases Scan.posting line.cursor.skipGap <;> rfl

section

variable {start : Cursor} {date header : Token} {body left : List Line}
  {found : List Token} (hbody : ∀ line ∈ body, line.isIndented = true)
  (hfound : postingsOf body = .ok found)

include hbody hfound

/-- Where a posting goes astray, the transaction does. -/
theorem transactionOver_astray {next : Line} (hindented : next.isIndented = true)
    (hposting : next.isComment = false) {stray : Stray}
    (hrun : Scan.posting next.cursor.skipGap = .error stray) :
    transactionOver start date header (body ++ next :: left) = .error stray := by
  have hbelow : (body ++ next :: left).takeWhile (·.isIndented) =
      body ++ ([next] ++ left.takeWhile (·.isIndented)) := by
    rw [List.takeWhile_append_of_pos hbody, List.takeWhile_cons_of_pos hindented]
    rfl
  unfold transactionOver
  rw [hbelow, postingsOf_append, hfound, postingsOf_append, postingsOf_singleton hposting, hrun]
  rfl

/-- Below the indented lines a transaction is over. -/
theorem transactionOver_eq (hleft : ∀ line ∈ left.head?, line.isIndented = false) :
    transactionOver start date header (body ++ left) =
      if found = [] then .error ⟨offsetBelow start.line body left, .posting⟩
      else .ok (transactionToken start body date header found) := by
  obtain ⟨htake, hdrop⟩ := split_indented hbody hleft
  unfold transactionOver
  rw [htake, hdrop, hfound]
  rfl

end

/-! ## Dated statements in parts -/

theorem Scan.run_bind {α β : Type} (m : Scan α) (f : α → Scan β) (c : Cursor) :
    (m >>= f) c = m c >>= fun found => f found.1 found.2 := rfl

theorem Scan.run_map {α β : Type} (f : α → β) (m : Scan α) (c : Cursor) :
    (f <$> m) c = m c >>= fun found => .ok (f found.1, found.2) := rfl

theorem Scan.run_pure {α : Type} (a : α) (c : Cursor) : (pure a : Scan α) c = .ok (a, c) := rfl

section

variable (start c : Cursor) (below : List Line) (date : Token)

theorem datedRest_line {rule : Rule} (h : rule ≠ .transaction) :
    datedRest start below (date, rule) c =
      (do Scan.lastOnLine start rule (date :: (← Scan.arguments rule))) c >>= fun found =>
        .ok ((found.1, below), found.2) := by
  unfold datedRest Scan.lastOnLine
  rw [if_neg h]
  simp only [Scan.run_bind, bind_assoc, Scan.run_pure]
  rfl

theorem datedRest_custom :
    datedRest start below (date, .custom) c =
      (do Scan.gap "the custom arguments"; Scan.lexeme .string) c >>= fun first =>
        Scan.furtherStrings first.2 >>= fun more =>
          Scan.lastOnLine start .custom ([date, first.1] ++ more.1) more.2 >>= fun found =>
            .ok ((found.1, below), found.2) := by
  rw [datedRest_line _ _ _ _ (by decide)]
  unfold Scan.arguments
  simp only [Scan.run_bind, bind_assoc, Scan.run_pure]
  rfl

theorem datedRest_transaction :
    datedRest start below (date, .transaction) c =
      (do let header ← Scan.header; Scan.lineEnd; return header) c >>= fun header =>
        transactionOver start date header.1 below >>= fun d =>
          .ok ((d, below.dropWhile (·.isIndented)), header.2) := by
  unfold datedRest transactionFrom transactionOver
  simp only [if_true, Scan.run_bind, bind_assoc, Scan.run_pure]
  cases postingsOf (below.takeWhile (·.isIndented)) with
  | error stray => rfl
  | ok postings =>
    refine bind_congr fun header => bind_congr fun ended => ?_
    change (if postings = [] then _ else _ : Scan Token) _ >>= _ =
      (if postings = [] then _ else _) >>= _
    split <;> rfl

end

theorem Scan.gap_lexeme_rest_length_lt {what : String} {kind : Lexeme} {c stop : Cursor} {t : Token}
    (h : (do gap what; lexeme kind) c = .ok (t, stop)) : stop.rest.length < c.rest.length := by
  obtain ⟨_, _, hgap, hlexeme⟩ := bind_apply_eq_ok_iff.1 h
  obtain ⟨hhead, rfl⟩ := gap_eq_ok_iff.1 hgap
  exact Nat.lt_of_le_of_lt (lexeme_rest_length_le hlexeme) (skipGap_rest_length_lt hhead)

theorem Scan.opening_rest_length_lt {wanted : Option Rule} {c stop : Cursor}
    {opened : Token × Rule} (h : opening wanted c = .ok (opened, stop)) :
    stop.rest.length < c.rest.length := by
  obtain ⟨-, middle, hdate, hgap, word, -, rfl⟩ := opening_eq_ok_iff.1 h
  have hgap := skipGap_rest_length_lt hgap
  have hdate := lexeme_rest_length_le hdate
  rw [Cursor.rest_advance, List.length_drop]
  omega

theorem Scan.furtherStrings_eq {c : Cursor} (h : c.atLineEnd = false) :
    furtherStrings c = furtherString c >>= fun found =>
      (fun more => (found.1 :: more.1, more.2)) <$> furtherStrings found.2 := by
  rw [furtherStrings, if_neg (by simp [h])]
  split
  · rename_i hstring
    simp only [hstring]
    rfl
  · rename_i t stop hstring
    simp only [hstring]
    change _ = (fun more => (t :: more.1, more.2)) <$> furtherStrings stop
    cases furtherStrings stop <;> rfl

end DoubleEntry
