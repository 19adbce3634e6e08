import DoubleEntry.Proofs.Source.Passing
import DoubleEntry.Proofs.Source.Reread
import DoubleEntry.Proofs.Token.Rounds

/-! What the stages of reading lead to. Each step says how far it goes, and keeps what recursion
over the lines that are left would read. -/
namespace DoubleEntry

open Text

/-! ## Places -/

section

variable {s : Source}

theorem Scan.staysOn_lastOnLine {line : Line} (hline : line.IsIn s) (start : Cursor) (rule : Rule)
    (children : List Token) : StaysOn s line (lastOnLine start rule children) :=
  (staysOn_nodeFrom start rule children).bind fun t =>
    (staysOn_lineEnd hline).bind fun _ => staysOn_pure t

theorem offsetBelow_eq {line : Line} {body left : List Line}
    (h : LinesFrom s line.start (line :: (body ++ left))) :
    offsetBelow line body left = min ((body.getLastD line).stop + 1) s.chars.length := by
  have hlast := h.drop
  cases left with
  | nil =>
    rw [← hlast.stop_eq, Nat.min_eq_right (Nat.le_succ _)]
    rfl
  | cons next left =>
    rw [hlast.start_eq, Nat.min_eq_left hlast.isIn.start_le]
    rfl

/-- The first posting is listed on the line below the header. -/
theorem position_first {start : Cursor} {next : Line} {below : List Line}
    (h : start.Stands s (next :: below)) :
    s.position (s.pastLine start.offset) = ⟨start.line.number + 1, 1⟩ := by
  obtain ⟨hstands, hoffset⟩ := (Source.leaves_pastLine h).cons
  rw [← hoffset, Source.position_eq_countedPosition hstands.offset_le, ← h.lines.number_next]
  exact hstands.isIn.countedPosition (Nat.zero_le _)

/-- Up to where the next line starts a transaction has the same text as up to its last line. -/
theorem OpenTransaction.close_eq {start : Cursor} {date header : Token} {body left : List Line}
    {found : List Token}
    (hstands : start.Stands s (body ++ left)) (hfound : postingsOf body = .ok found)
    (hne : found ≠ []) :
    close s ⟨start, date, header, s.pastLine start.offset⟩ found
        (min ((body.getLastD start.line).stop + 1) s.chars.length) =
      transactionToken start body date header found := by
  have hplace : s.position (s.pastLine start.offset) = ⟨start.line.number + 1, 1⟩ := by
    cases body with
    | nil =>
      cases hfound
      contradiction
    | cons next body => exact position_first hstands
  have hjoin := hstands.lines.joinWith_eq_slice hstands.column_le
  have hlast := hstands.lines.drop
  have hstart := Nat.le_trans hstands.offset_le_stop hstands.lines.stop_le_stop
  generalize (body.getLastD start.line).stop = stop at hjoin hlast hstart
  -- up to the next line there is nothing but the line feed, and the text is trimmed
  have hblanks : ∀ c ∈ s.slice stop (min (stop + 1) s.chars.length), isBlank c = true := by
    cases left with
    | nil =>
      rw [← hlast.stop_eq, Nat.min_eq_right (Nat.le_succ _), Source.slice_self]
      simp
    | cons next left =>
      have hle : stop + 1 ≤ s.chars.length := by
        rw [hlast.start_eq]
        exact hlast.isIn.start_le
      rw [Nat.min_eq_left hle, hlast.slice_lineFeed]
      exact List.forall_mem_singleton.mpr (by decide)
  have hstop : stop ≤ min (stop + 1) s.chars.length := hlast.fill_lineFeed.le.1
  unfold OpenTransaction.close transactionToken
  simp only [hplace]
  rw [← Source.slice_append hstart hstop, trimEnd_append_blanks hblanks, Cursor.rest, hjoin]
  rfl

end

/-! ## What a stage leads to -/

/-- What comes behind a dated statement, once that has been read. -/
def ScanGoal.outcome (goal : ScanGoal) (d : Token) (left : List Line) : Except Stray (List Token) :=
  match goal with
  | .ledger found => (found ++ [d.asStatement] ++ ·) <$> directives left
  | .alone .statement => (fun _ => [d.asStatement]) <$> vacantOnly left
  | .alone _ => (fun _ => [d]) <$> vacantOnly left

namespace Source

def settle (s : Source) (result : Except Stray (List Token)) : Except ReadingError (List Token) :=
  result.mapError s.refuse

theorem settle_ok_bind {s : Source} {α : Type} (a : α) (k : α → Except Stray (List Token)) :
    s.settle (.ok a >>= k) = s.settle (k a) := rfl

/-- Reading by a rule from a place on. -/
def readFrom (s : Source) (rule : Rule) (place : Cursor × List Line) :
    Except ReadingError (List Token) :=
  match Scan.ofRule? rule place.2 with
  | none => .error (.notAlone rule)
  | some scan =>
    s.settle (scan place.1 >>= fun found => (fun _ => [found.1.1]) <$> requireEnd found.2 found.1.2)

end Source

namespace ScanStage

/-- What a stage leads to, as recursion over the lines that are left has it. -/
def Means (s : Source) : ScanStage → Except ReadingError (List Token) → Prop
  | .seeking (.ledger found) offset, result =>
    ∃ left, s.Leaves offset left ∧ result = s.settle ((found ++ ·) <$> directives left)
  | .seeking (.alone rule) offset, result =>
    ∃ c below, c.Stands s below ∧ c.offset = offset ∧ result = s.readFrom rule (placeFrom c below)
  | .listing goal start children c, result =>
    ∃ below, c.Stands s below ∧ result = s.settle (Scan.furtherStrings c >>= fun more =>
      Scan.lastOnLine start .custom (children ++ more.1) more.2 >>= fun found =>
        goal.outcome found.1 below)
  | .posting goal ⟨start, date, header, first⟩ found offset, result =>
    ∃ body left, start.Stands s (body ++ left) ∧ (∀ line ∈ body, line.isIndented = true) ∧
      postingsOf body = .ok found ∧ first = s.pastLine start.offset ∧
      offset = min ((body.getLastD start.line).stop + 1) s.chars.length ∧
      result = s.settle (transactionOver start date header (body ++ left) >>= fun d =>
        goal.outcome d ((body ++ left).dropWhile (·.isIndented)))
  | .closing token offset, result =>
    ∃ c below, c.Stands s below ∧ c.offset = offset ∧
      result = s.settle ((fun _ => [token]) <$> requireEnd c below)
  | .ended given, result => result = given

/-- How far a step goes. -/
inductive Onward (s : Source) : ScanStage → ScanStage → Prop
  | vacant {goal : ScanGoal} {a b : Nat} : a < b → s.PassesLine a b →
      Onward s (.seeking goal a) (.seeking goal b)
  | trailing {t : Token} {a b : Nat} : a < b → s.PassesLine a b →
      Onward s (.closing t a) (.closing t b)
  | directive {found found' : List Token} {a b : Nat} : found.length < found'.length → a < b →
      s.PassesLine a b → Onward s (.seeking (.ledger found) a) (.seeking (.ledger found') b)
  | token {rule : Rule} {t : Token} {a b : Nat} : a ≤ b →
      Onward s (.seeking (.alone rule) a) (.closing t b)
  | openList {goal : ScanGoal} {start c : Cursor} {children : List Token} {a : Nat} :
      a < c.offset → c.offset ≤ s.chars.length →
      Onward s (.seeking goal a) (.listing goal start children c)
  | openTransaction {goal : ScanGoal} {transaction : OpenTransaction} {a b : Nat} : a < b →
      s.PassesLine a b → Onward s (.seeking goal a) (.posting goal transaction [] b)
  | argument {goal : ScanGoal} {start c c' : Cursor} {children children' : List Token} :
      c.offset < c'.offset → c'.offset ≤ s.chars.length →
      Onward s (.listing goal start children c) (.listing goal start children' c')
  | listed {goal : ScanGoal} {start c : Cursor} {children : List Token} {d : Token} {b : Nat}
      {later : ScanStage} : c.offset ≤ b → s.PassesLine c.offset b → later = goal.reached d b →
      Onward s (.listing goal start children c) later
  | posting {goal : ScanGoal} {transaction : OpenTransaction} {found found' : List Token}
      {a b : Nat} : a < b → s.PassesLine a b →
      Onward s (.posting goal transaction found a) (.posting goal transaction found' b)
  | posted {goal : ScanGoal} {transaction : OpenTransaction} {found : List Token} {d : Token}
      {a : Nat} {later : ScanStage} : later = goal.reached d a →
      Onward s (.posting goal transaction found a) later
  | ended {stage : ScanStage} {result : Except ReadingError (List Token)} :
      Onward s stage (.ended result)

structure Leads (s : Source) (stage : ScanStage) (result : Except ReadingError (List Token))
    (later : ScanStage) : Prop where
  onward : Onward s stage later
  means : Means s later result

section

variable {s : Source} {stage : ScanStage} {goal : ScanGoal}

theorem leads_astray (stray : Stray) : Leads s stage (s.settle (.error stray)) (astray s stray) :=
  ⟨.ended, rfl⟩

theorem leads_after {α : Type} {scanned : Except Stray (α × Cursor)} {f : α → Cursor → ScanStage}
    {k : α × Cursor → Except Stray (List Token)}
    (h : ∀ a c, scanned = .ok (a, c) → Leads s stage (s.settle (k (a, c))) (f a c)) :
    Leads s stage (s.settle (scanned >>= k)) (after s scanned f) := by
  cases scanned with
  | error stray => exact leads_astray stray
  | ok found => exact h found.1 found.2 rfl

/-! ## Behind a token -/

theorem means_closing {t : Token} {a : Nat} {left : List Line} (h : s.Leaves a left) :
    Means s (.closing t a) (s.settle ((fun _ => [t]) <$> vacantOnly left)) := by
  cases left with
  | cons line below =>
    obtain ⟨hstands, hoffset⟩ := h.cons
    exact ⟨_, below, hstands, hoffset, by rw [requireEnd_cursor]⟩
  | nil =>
    obtain ⟨below, hstands, hoffset⟩ := Source.cursorAt_spec (Nat.le_of_eq h.nil)
    obtain ⟨rfl, hrest⟩ := Source.rest_eq_nil_of_end hstands (hoffset.trans h.nil)
    exact ⟨_, [], hstands, hoffset, by rw [requireEnd_of_atLineEnd (Scan.atLineEnd_of_nil hrest)]⟩

theorem means_reached {d : Token} {a : Nat} {left : List Line} (h : s.Leaves a left) :
    Means s (goal.reached d a) (s.settle (goal.outcome d left)) := by
  cases goal with
  | ledger found => exact ⟨left, h, rfl⟩
  | alone rule => cases rule <;> exact means_closing h

theorem onward_reached {d : Token} {a b : Nat} (hlt : a < b) (h : s.PassesLine a b) :
    Onward s (.seeking goal a) (goal.reached d b) := by
  cases goal with
  | ledger found => exact .directive (by simp) hlt h
  | alone rule => cases rule <;> exact .token (Nat.le_of_lt hlt)

/-! ## Strings -/

theorem leads_listing {start c : Cursor} {children : List Token}
    {result : Except ReadingError (List Token)}
    (h : Means s (.listing goal start children c) result) :
    Leads s (.listing goal start children c) result (next s (.listing goal start children c)) := by
  obtain ⟨below, hstands, rfl⟩ := h
  have hline := hstands.isIn
  have hfurther : Scan.StaysOn s c.line Scan.furtherString :=
    (Scan.staysOn_gap hline _).bind fun _ => Scan.staysOn_lexeme hline .string
  rw [next]
  split
  · rename_i hend
    rw [Scan.furtherStrings, if_pos hend, Source.settle_ok_bind, List.append_nil]
    refine leads_after fun d stop hrun => ?_
    obtain ⟨hleft, hpast⟩ :=
      Source.leaves_of_staysOn hstands (Scan.staysOn_lastOnLine hline _ _ _) hrun
    refine ⟨.listed ?_ (hleft.passesLine (Nat.le_of_eq hpast.symm)) rfl, means_reached hleft⟩
    rw [hpast]
    exact Source.le_pastLine hstands.offset_le
  · rename_i hend
    rw [Scan.furtherStrings_eq (by simpa using hend), bind_assoc]
    refine leads_after fun t stop hrun => ?_
    have hon := hfurther.isOn hstands.isOn hrun
    have hstop := hstands.move hon
    have hlt := hstands.offset_lt hon (Scan.furtherString_rest_length_lt hrun)
    refine ⟨.argument hlt hstop.offset_le, below, hstop, ?_⟩
    rw [bind_map_left]
    simp only [List.append_assoc, List.singleton_append]

/-! ## The end -/

theorem leads_closing {t : Token} {a : Nat} {result : Except ReadingError (List Token)}
    (h : Means s (.closing t a) result) :
    Leads s (.closing t a) result (next s (.closing t a)) := by
  obtain ⟨c, below, hstands, rfl, rfl⟩ := h
  rcases Source.pastVacant?_cases hstands with
    ⟨hlt, hvacant, hpast⟩ | ⟨hlt, hink, hpast⟩ | ⟨hend, rfl, hrest, hpast⟩
  · obtain ⟨hlater, hpasses⟩ := Source.passesLine_pastLine hstands hlt
    rw [requireEnd_of_atLineEnd hvacant]
    simp only [next, hpast]
    exact ⟨.trailing hlater hpasses, means_closing (Source.leaves_pastLine hstands)⟩
  · have hstop := Source.skipGap_offset_lt hstands hink
    simp only [next, hpast, Source.cursorAt_offset hstands, if_neg (Nat.not_le.2 hstop)]
    rw [requireEnd, if_neg (by simp [hink])]
    exact leads_astray _
  · have hstop : s.chars.length ≤ c.skipGap.offset := hend ▸ Cursor.Stands.offset_le_skipGap c
    simp only [next, hpast, Source.cursorAt_offset hstands, if_pos hstop]
    rw [requireEnd_of_atLineEnd (Scan.atLineEnd_of_nil hrest)]
    exact ⟨.ended, rfl⟩

/-! ## Postings -/

/-- One more indented line has been read. -/
theorem means_extended {start : Cursor} {date header : Token} {line : Line}
    {body left : List Line} {found more : List Token}
    (hstands : start.Stands s (body ++ line :: left))
    (hbody : ∀ line ∈ body, line.isIndented = true) (hfound : postingsOf body = .ok found)
    (hindented : line.isIndented = true) (hmore : postingsOf [line] = .ok more) :
    Means s (.posting goal ⟨start, date, header, s.pastLine start.offset⟩ (found ++ more)
        (s.pastLine line.cursor.offset))
      (s.settle (transactionOver start date header (body ++ line :: left) >>= fun d =>
        goal.outcome d ((body ++ line :: left).dropWhile (·.isIndented)))) := by
  have hlines : LinesFrom s _ ((start.line :: body) ++ line :: left) := hstands.lines
  have hcursor : line.cursor.Stands s left := .of_line hlines.fromLine
  have hbelow : body ++ line :: left = (body ++ [line]) ++ left := List.append_cons _ _ _
  rw [hbelow] at hstands ⊢
  refine ⟨body ++ [line], left, hstands, ?_, ?_, rfl, ?_, rfl⟩
  · rw [List.forall_mem_append]
    exact ⟨hbody, by simpa using hindented⟩
  · rw [postingsOf_append, hfound, hmore]
    rfl
  · rw [List.getLastD_concat, Source.pastLine_offset hcursor]
    rfl

section

variable {start : Cursor} {date header : Token} {body left : List Line} {found : List Token}
  {a : Nat}

/-- The lines below a transaction are left. -/
theorem leads_over (hstands : start.Stands s (body ++ left))
    (hbody : ∀ line ∈ body, line.isIndented = true)
    (hleft : ∀ line ∈ left.head?, line.isIndented = false) (hfound : postingsOf body = .ok found)
    (hoffset : a = min ((body.getLastD start.line).stop + 1) s.chars.length)
    (hend : ¬(a < s.chars.length ∧ (s.lineOf a).isIndented = true)) :
    Leads s (.posting goal ⟨start, date, header, s.pastLine start.offset⟩ found a)
      (s.settle (transactionOver start date header (body ++ left) >>= fun d =>
        goal.outcome d ((body ++ left).dropWhile (·.isIndented))))
      (next s (.posting goal ⟨start, date, header, s.pastLine start.offset⟩ found a)) := by
  rw [next, if_neg hend, transactionOver_eq hbody hfound hleft, (split_indented hbody hleft).2]
  split
  · rw [offsetBelow_eq hstands.lines, ← hoffset]
    exact leads_astray _
  · rename_i hne
    refine ⟨.posted rfl, ?_⟩
    rw [Source.settle_ok_bind, ← OpenTransaction.close_eq hstands hfound hne, ← hoffset]
    exact means_reached ⟨_, hstands.lines.drop, hoffset⟩

/-- A line below the header is a comment or a posting. -/
theorem leads_indented {line : Line} (hstands : start.Stands s (body ++ line :: left))
    (hcursor : line.cursor.Stands s left) (hbody : ∀ line ∈ body, line.isIndented = true)
    (hfound : postingsOf body = .ok found) (hlt : line.cursor.offset < s.chars.length)
    (hindented : line.isIndented = true) :
    Leads s (.posting goal ⟨start, date, header, s.pastLine start.offset⟩ found line.cursor.offset)
      (s.settle (transactionOver start date header (body ++ line :: left) >>= fun d =>
        goal.outcome d ((body ++ line :: left).dropWhile (·.isIndented))))
      (next s (.posting goal ⟨start, date, header, s.pastLine start.offset⟩ found
        line.cursor.offset)) := by
  obtain ⟨hlater, hpasses⟩ := Source.passesLine_pastLine hcursor hlt
  have hlineOf : s.lineOf line.cursor.offset = line := Source.lineOf_offset hcursor
  have hread : line.cursor.offset < s.chars.length ∧ line.isIndented = true := ⟨hlt, hindented⟩
  simp only [next, hlineOf, Source.cursorAt_offset hcursor, if_pos hread]
  cases hcomment : line.isComment with
  | true =>
    have hnone : postingsOf [line] = .ok [] := postingsOf_of_isComment (by simpa using hcomment)
    have hmeans : Means s (.posting goal ⟨start, date, header, s.pastLine start.offset⟩
        (found ++ []) (s.pastLine line.cursor.offset)) _ :=
      means_extended hstands hbody hfound hindented hnone
    have hpast : min (line.cursor.offset + line.chars.length + 1) s.chars.length =
        s.pastLine line.cursor.offset := (Source.pastLine_offset hcursor).symm
    rw [List.append_nil] at hmeans
    rw [if_pos rfl, hpast]
    exact ⟨.posting hlater hpasses, hmeans⟩
  | false =>
    rw [if_neg (by simp)]
    cases hrun : Scan.posting line.cursor.skipGap with
    | error stray =>
      rw [transactionOver_astray hbody hfound hindented hcomment hrun]
      exact leads_astray stray
    | ok posted =>
      obtain ⟨t, stop⟩ := posted
      have hone : postingsOf [line] = .ok [t] := by
        rw [postingsOf_singleton hcomment, hrun]
        rfl
      have hon := (Scan.staysOn_posting hcursor.isIn).isOn hcursor.isOn.skipGap hrun
      simp only [after, Source.pastLine_eq hcursor hon]
      exact ⟨.posting hlater hpasses, means_extended hstands hbody hfound hindented hone⟩

end

theorem leads_posting {transaction : OpenTransaction} {found : List Token} {a : Nat}
    {result : Except ReadingError (List Token)}
    (h : Means s (.posting goal transaction found a) result) :
    Leads s (.posting goal transaction found a) result
      (next s (.posting goal transaction found a)) := by
  obtain ⟨start, date, header, first⟩ := transaction
  obtain ⟨body, left, hstands, hbody, hfound, rfl, hoffset, rfl⟩ := h
  have hleaves : s.Leaves a left := ⟨_, hstands.lines.drop, hoffset⟩
  cases left with
  | nil =>
    exact leads_over hstands hbody (by simp) hfound hoffset fun h => absurd hleaves.nil h.1.ne
  | cons line left =>
    obtain ⟨hcursor, rfl⟩ := hleaves.cons
    by_cases hread : line.cursor.offset < s.chars.length ∧ line.isIndented = true
    · exact leads_indented hstands hcursor hbody hfound hread.1 hread.2
    · refine leads_over hstands hbody (fun other hother => ?_) hfound hoffset ?_
      · cases hother
        rcases Nat.lt_or_eq_of_le hcursor.offset_le with hlt | hend
        · simpa [hlt] using hread
        · exact Line.not_isIndented_of_chars_eq_nil (Source.rest_eq_nil_of_end hcursor hend).2
      · rwa [Source.lineOf_offset hcursor]

/-! ## Beginnings -/

/-- Past the line of a place, wherever on it a statement ends. -/
theorem leaves_behind {c stop : Cursor} {below : List Line} {a : Nat} (hstands : c.Stands s below)
    (hlt : c.offset < s.chars.length) (hle : a ≤ c.offset)
    (hsame : s.pastLine a = s.pastLine c.offset) (hstop : stop.IsOn c.line) :
    s.Leaves (s.pastLine stop.offset) below ∧ s.pastLine stop.offset = s.pastLine c.offset ∧
      a < s.pastLine stop.offset ∧ s.PassesLine a (s.pastLine stop.offset) := by
  have hleaves := Source.leaves_pastLine (hstands.move hstop)
  have hpast := Source.pastLine_eq hstands hstop
  have hlater : c.offset < s.pastLine c.offset := Source.lt_pastLine hlt
  exact ⟨hleaves, hpast, by omega, hleaves.passesLine (by omega)⟩

theorem leads_beginDated {wanted : Option Rule} {c : Cursor} {below : List Line} {a : Nat}
    (hstands : c.Stands s below) (hle : a ≤ c.offset) (hsame : s.pastLine a = s.pastLine c.offset) :
    Leads s (.seeking goal a)
      (s.settle (dated wanted below c >>= fun found => goal.outcome found.1.1 found.1.2))
      (beginDated s goal wanted c) := by
  have hline := hstands.isIn
  have hdated : dated wanted below c =
      Scan.opening wanted c >>= fun opened => datedRest c below opened.1 opened.2 := rfl
  rw [hdated, bind_assoc]
  refine leads_after fun opened stop hrun => ?_
  have hon := (Scan.staysOn_opening hline wanted).isOn hstands.isOn hrun
  have hstop := hstands.move hon
  have hlt := hstands.offset_lt hon (Scan.opening_rest_length_lt hrun)
  have hinside : c.offset < s.chars.length := Nat.lt_of_lt_of_le hlt hstop.offset_le
  have hend {next : Cursor} (hnext : next.IsOn c.line) :=
    leaves_behind hstands hinside hle hsame hnext
  obtain ⟨date, rule⟩ := opened
  simp only
  split
  · rw [datedRest_transaction, bind_assoc]
    refine leads_after fun header next hheader => ?_
    have hscan : Scan.StaysOn s c.line (do let header ← Scan.header; Scan.lineEnd; return header) :=
      (Scan.staysOn_header hline).bind fun header =>
        (Scan.staysOn_lineEnd hline).bind fun _ => Scan.staysOn_pure header
    obtain ⟨-, hpast, hlater, hpasses⟩ := hend (hscan.isOn hon hheader)
    refine ⟨.openTransaction hlater hpasses, [], below, hstands, by simp, rfl, hpast, ?_, ?_⟩
    · exact hpast.trans (Source.pastLine_offset hstands)
    · simp only [bind_assoc]
      rfl
  · rw [datedRest_custom, bind_assoc]
    refine leads_after fun first next hfirst => ?_
    have hscan : Scan.StaysOn s c.line
        (do Scan.gap "the custom arguments"; Scan.lexeme .string) :=
      (Scan.staysOn_gap hline _).bind fun _ => Scan.staysOn_lexeme hline .string
    have hnext := hstands.move (hscan.isOn hon hfirst)
    have hlater := hstop.offset_lt (hon.1.symm ▸ hscan.isOn hon hfirst)
      (Scan.gap_lexeme_rest_length_lt hfirst)
    refine ⟨.openList (by omega) hnext.offset_le, below, hnext, ?_⟩
    simp only [bind_assoc]
    rfl
  · rename_i hother _
    rw [datedRest_line _ _ _ _ hother, bind_assoc]
    refine leads_after fun d next hd => ?_
    have hscan : Scan.StaysOn s c.line
        (do Scan.lastOnLine c rule (date :: (← Scan.arguments rule))) :=
      (Scan.staysOn_arguments hline rule).bind fun children => Scan.staysOn_lastOnLine hline _ _ _
    obtain ⟨hleaves, -, hlater, hpasses⟩ := hend (hscan.isOn hon hd)
    exact ⟨onward_reached hlater hpasses, means_reached hleaves⟩

/-- A directive that is a line by itself. -/
theorem leads_keywordLine {found : List Token} {line : Line} {below : List Line} {scan : Scan Token}
    (hcursor : line.cursor.Stands s below) (hlt : line.cursor.offset < s.chars.length)
    (hscan : Scan.StaysOn s line scan) :
    Leads s (.seeking (.ledger found) line.cursor.offset)
      (s.settle ((fun read => (read.1, below)) <$> scan line.cursor >>= fun read =>
        (found ++ [read.1] ++ ·) <$> directives read.2))
      (after s (scan line.cursor) fun t stop =>
        .seeking (.ledger (found ++ [t])) (s.pastLine stop.offset)) := by
  rw [bind_map_left]
  refine leads_after fun t stop hrun => ?_
  obtain ⟨hleaves, hpast⟩ := Source.leaves_of_staysOn hcursor hscan hrun
  obtain ⟨hlater, hpasses⟩ := Source.passesLine_pastLine hcursor hlt
  rw [← hpast] at hlater hpasses
  exact ⟨.directive (by simp) hlater hpasses, below, hleaves, rfl⟩

theorem leads_beginDirective {found : List Token} {line : Line} {below : List Line}
    (hcursor : line.cursor.Stands s below) (hink : line.isVacant = false)
    (hlt : line.cursor.offset < s.chars.length) :
    Leads s (.seeking (.ledger found) line.cursor.offset)
      (s.settle ((found ++ ·) <$> directives (line :: below)))
      (beginDirective s found line.cursor.offset) := by
  have hline := hcursor.isIn
  have hrest : line.cursor.rest = line.chars := rfl
  have hdirective : (found ++ ·) <$> directives (line :: below) =
      directive line below >>= fun read => (found ++ [read.1] ++ ·) <$> directives read.2 := by
    rw [directives_cons hink, map_bind]
    refine bind_congr fun read => ?_
    simp only [Functor.map_map, List.append_assoc, List.singleton_append]
  rw [hdirective]
  unfold directive beginDirective
  simp only [Source.cursorAt_offset hcursor, hrest]
  by_cases hblank : line.chars.head?.any isBlank = true
  · rw [if_pos hblank, if_pos hblank]
    exact leads_astray _
  rw [if_neg hblank, if_neg hblank]
  by_cases hoption : Scan.startsWith "option" line.chars = true
  · rw [if_pos hoption, if_pos hoption]
    exact leads_keywordLine hcursor hlt (Scan.staysOn_option hline)
  rw [if_neg hoption, if_neg hoption]
  by_cases hinclude : Scan.startsWith "include" line.chars = true
  · rw [if_pos hinclude, if_pos hinclude]
    exact leads_keywordLine hcursor hlt (Scan.staysOn_includeFile hline)
  rw [if_neg hinclude, if_neg hinclude]
  by_cases hunit : Scan.startsWith "unit" line.chars = true
  · rw [if_pos hunit, if_pos hunit]
    exact leads_keywordLine hcursor hlt (Scan.staysOn_unit hline)
  rw [if_neg hunit, if_neg hunit]
  by_cases hdate : Date.hasForm (firstWord line.chars) = true
  · rw [if_pos hdate, if_pos hdate, bind_map_left]
    unfold statement
    rw [Scan.run_bind, bind_assoc]
    exact leads_beginDated hcursor (Nat.le_refl _) rfl
  · rw [if_neg hdate, if_neg hdate]
    exact leads_astray _

theorem leads_ledger {found : List Token} {a : Nat} {result : Except ReadingError (List Token)}
    (h : Means s (.seeking (.ledger found) a) result) :
    Leads s (.seeking (.ledger found) a) result (next s (.seeking (.ledger found) a)) := by
  obtain ⟨left, hleaves, rfl⟩ := h
  cases left with
  | nil =>
    have hnone : s.pastVacant? a = none := if_neg fun h => Nat.ne_of_lt h.1 hleaves.nil
    simp only [next, hnone, if_pos (Nat.le_of_eq hleaves.nil.symm), directives_nil]
    exact ⟨.ended, congrArg Except.ok (List.append_nil found)⟩
  | cons line below =>
    obtain ⟨hcursor, rfl⟩ := hleaves.cons
    rcases Source.pastVacant?_cases hcursor with
      ⟨hlt, hvacant, hpast⟩ | ⟨hlt, hink, hpast⟩ | ⟨hend, rfl, hrest, hpast⟩
    · obtain ⟨hlater, hpasses⟩ := Source.passesLine_pastLine hcursor hlt
      simp only [next, hpast, directives_of_isVacant hvacant]
      exact ⟨.vacant hlater hpasses, below, Source.leaves_pastLine hcursor, rfl⟩
    · simp only [next, hpast, if_neg (Nat.not_le.2 hlt)]
      exact leads_beginDirective hcursor hink hlt
    · have hvacant : line.isVacant = true := Scan.atLineEnd_of_nil hrest
      simp only [next, hpast, if_pos (Nat.le_of_eq hend.symm), directives_of_isVacant hvacant,
        directives_nil]
      exact ⟨.ended, congrArg Except.ok (List.append_nil found)⟩

theorem filled_of_stands {c : Cursor} {below : List Line} (h : c.Stands s below) :
    Filled s c.line c.offset [] c := by
  refine ⟨rfl, h.column_le, .nil (Nat.le_refl _) h.offset_le ?_⟩
  rw [Source.slice_self]
  exact .nil

section

variable {rule : Rule} {c : Cursor} {below : List Line}

theorem leads_wholeLine {inner : Scan (List Token)} (h : c.Stands s below)
    (hscan : Scan.StaysOn s c.line (Scan.lineOf rule inner)) :
    Leads s (.seeking (.alone rule) c.offset)
      (s.settle (((·, below) <$> Scan.lineOf rule inner) c.skipGap >>= fun found =>
        (fun _ => [found.1.1]) <$> requireEnd found.2 found.1.2))
      (after s (Scan.lineOf rule inner c.skipGap) fun t stop =>
        .closing t (s.pastLine stop.offset)) := by
  have hon := h.isOn.skipGap
  rw [Scan.run_map, bind_assoc]
  refine leads_after fun t stop hrun => ?_
  obtain ⟨hleaves, hpast⟩ := Source.leaves_of_staysOn (h.move hon) hscan hrun
  refine ⟨.token ?_, ?_⟩
  · rw [hpast, Source.pastLine_eq h hon]
    exact Source.le_pastLine h.offset_le
  · rw [Source.settle_ok_bind, requireEnd_of_atLineEnd (rule_of_lineOf hrun).2]
    exact means_closing hleaves

theorem leads_partOfLine {scan : Scan Token} (h : c.Stands s below)
    (hscan : Scan.Ensures (Filled s c.line c.skipGap.offset []) scan
      fun t => FilledToInk s c.line c.skipGap.offset [t]) :
    Leads s (.seeking (.alone rule) c.offset)
      (s.settle (((·, below) <$> scan) c.skipGap >>= fun found =>
        (fun _ => [found.1.1]) <$> requireEnd found.2 found.1.2))
      (after s (scan c.skipGap) fun t stop => .closing t stop.offset) := by
  have hstart := h.move h.isOn.skipGap
  rw [Scan.run_map, bind_assoc]
  refine leads_after fun t stop hrun => ?_
  have hstop := hscan _ _ _ (filled_of_stands hstart) hrun
  have hle := Nat.le_trans (Cursor.Stands.offset_le_skipGap c) hstop.fill.le.1
  exact ⟨.token hle, stop, below, hstart.move ⟨hstop.line_eq, hstop.column_le⟩, rfl, rfl⟩

/-- A dated statement, alone or inside a token of its own. -/
theorem leads_datedAlone {wanted : Option Rule} {f : Token → Token} (h : c.Stands s below)
    (hf : ∀ d left, (ScanGoal.alone rule).outcome d left = (fun _ => [f d]) <$> vacantOnly left) :
    Leads s (.seeking (.alone rule) c.offset)
      (s.settle (dated wanted below c.skipGap >>= fun found =>
        (fun _ => [f found.1.1]) <$> requireEnd found.2 found.1.2))
      (beginDated s (.alone rule) wanted c.skipGap) := by
  have hends : (dated wanted below c.skipGap >>= fun found =>
      (fun _ => [f found.1.1]) <$> requireEnd found.2 found.1.2) =
        dated wanted below c.skipGap >>= fun found =>
          (ScanGoal.alone rule).outcome found.1.1 found.1.2 := by
    cases hrun : dated wanted below c.skipGap with
    | error stray => rfl
    | ok found =>
      obtain ⟨_, _, _, hrest⟩ := dated_eq_ok_iff.1 hrun
      change (fun _ => [f found.1.1]) <$> requireEnd found.2 found.1.2 = ScanGoal.outcome _ _ _
      rw [requireEnd_of_atLineEnd (rule_of_datedRest hrest).2, hf]
  rw [hends]
  exact leads_beginDated (h.move h.isOn.skipGap) (Cursor.Stands.offset_le_skipGap c)
    (Source.pastLine_eq h h.isOn.skipGap).symm

theorem leads_beginToken (h : c.Stands s below) :
    Leads s (.seeking (.alone rule) c.offset) (s.readFrom rule (c.skipGap, below))
      (beginToken s rule c.offset) := by
  have hline := h.isIn
  unfold beginToken Source.readFrom
  rw [Source.cursorAt_offset h]
  cases rule with
  | option => exact leads_wholeLine h (Scan.staysOn_option hline)
  | includeFile => exact leads_wholeLine h (Scan.staysOn_includeFile hline)
  | unit => exact leads_wholeLine h (Scan.staysOn_unit hline)
  | posting => exact leads_wholeLine h (Scan.staysOn_posting hline)
  | statement =>
    change Leads s _ (s.settle (statement below c.skipGap >>= _)) _
    unfold statement
    rw [Scan.run_bind, bind_assoc]
    exact leads_datedAlone (f := Token.asStatement) h fun _ _ => rfl
  | custom | openAccount | closeAccount | pad | balance | price | transaction =>
    exact leads_datedAlone (f := id) h fun _ _ => rfl
  | date | string | account | currency =>
    exact leads_partOfLine h (Scan.ensures_lexeme hline _)
  | amount => exact leads_partOfLine h (Scan.ensures_amount hline)
  | amountWithPrice => exact leads_partOfLine h (Scan.ensures_amountWithPrice hline)
  | ledger | txnHeader | txnState | txnList | nominal => exact ⟨.ended, rfl⟩

end

theorem leads_alone {rule : Rule} {a : Nat} {result : Except ReadingError (List Token)}
    (h : Means s (.seeking (.alone rule) a) result) :
    Leads s (.seeking (.alone rule) a) result (next s (.seeking (.alone rule) a)) := by
  obtain ⟨c, below, hstands, rfl, rfl⟩ := h
  rcases Source.pastVacant?_cases hstands with
    ⟨hlt, hvacant, hpast⟩ | ⟨hlt, hink, hpast⟩ | ⟨hend, rfl, hrest, hpast⟩
  · obtain ⟨hlater, hpasses⟩ := Source.passesLine_pastLine hstands hlt
    have hleaves := Source.leaves_pastLine hstands
    simp only [next, hpast]
    refine ⟨.vacant hlater hpasses, ?_⟩
    cases below with
    | nil =>
      have hoffset : c.toLineEnd.offset = s.pastLine c.offset :=
        hstands.lines.tail.stop_eq.trans hleaves.nil.symm
      have hend : c.toLineEnd.atLineEnd = true := Scan.atLineEnd_of_nil c.rest_toLineEnd
      refine ⟨c.toLineEnd, [], hstands.toLineEnd, hoffset, ?_⟩
      rw [placeFrom, placeFrom, if_pos hvacant, if_pos hend]
      rfl
    | cons line left =>
      obtain ⟨hcursor, hoffset⟩ := hleaves.cons
      exact ⟨line.cursor, left, hcursor, hoffset, by rw [placeFrom, if_pos hvacant, firstPlace_eq]⟩
  · simp only [next, hpast]
    have hplace : placeFrom c below = (c.skipGap, below) := by
      unfold placeFrom
      rw [if_neg (by simp [hink])]
    rw [hplace]
    exact leads_beginToken hstands
  · simp only [next, hpast]
    have hplace : placeFrom c [] = (c.skipGap, []) := by
      rw [placeFrom, if_pos (Scan.atLineEnd_of_nil hrest), hstands.toLineEnd_eq_skipGap hrest]
    rw [hplace]
    exact leads_beginToken hstands

theorem leads_next {result : Except ReadingError (List Token)} (h : Means s stage result) :
    Leads s stage result (next s stage) := by
  cases stage with
  | seeking goal a =>
    cases goal with
    | ledger found => exact leads_ledger h
    | alone rule => exact leads_alone h
  | listing goal start children c => exact leads_listing h
  | posting goal transaction found a => exact leads_posting h
  | closing t a => exact leads_closing h
  | ended given => exact ⟨.ended, h⟩

theorem means_opening (s : Source) (rule : Rule) : Means s (opening rule) (s.outcome rule) := by
  by_cases hrule : rule = .ledger
  · subst hrule
    refine ⟨s.lines, ⟨0, s.linesFrom_lines, (Nat.zero_min _).symm⟩, ?_⟩
    unfold Source.outcome Source.token Source.tokens Source.settle
    cases directives s.lines <;> rfl
  · have hopening : opening rule = .seeking (.alone rule) 0 := by
      cases rule <;> first | contradiction | rfl
    rw [hopening]
    refine ⟨s.firstLine.cursor, s.laterLines, .of_line s.linesFrom_lines, rfl, ?_⟩
    rw [← firstPlace_eq]
    unfold Source.outcome Source.token Source.readFrom
    simp only [if_neg hrule]
    cases Scan.ofRule? rule (firstPlace s.firstLine s.laterLines).2 with
    | none => rfl
    | some scan =>
      simp only
      cases scan (firstPlace s.firstLine s.laterLines).1 with
      | error stray => rfl
      | ok found =>
        change _ <$> Except.mapError _ (requireEnd found.2 found.1.2 >>= fun _ => _) =
          s.settle ((fun _ => [found.1.1]) <$> requireEnd found.2 found.1.2)
        cases requireEnd found.2 found.1.2 <;> rfl

end

end ScanStage
end DoubleEntry
