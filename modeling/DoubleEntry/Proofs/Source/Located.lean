import DoubleEntry.Proofs.Collection.Halving
import DoubleEntry.Proofs.Source.Line
import DoubleEntry.Proofs.Token.Alone
import DoubleEntry.Proofs.Token.Stray
import DoubleEntry.Source.Search

/-! Errors of reading point into the source. The place where reading goes astray is counted by line
feeds, found among the lines and found by halving the table of their starts, with one result. -/
namespace DoubleEntry

open Text

/-! ## Searching the line starts -/

theorem start_le_of_mem_numbered {number start : Nat} {pieces : List (List Char)} {line : Line}
    (h : line ∈ numbered number start pieces) : start ≤ line.start := by
  induction pieces generalizing number start with
  | nil => contradiction
  | cons cs pieces ih =>
    rcases List.mem_cons.1 h with rfl | h
    · exact Nat.le_refl _
    · have hstart := ih h
      omega

theorem pairwise_start_numbered (number start : Nat) (pieces : List (List Char)) :
    ((numbered number start pieces).map Line.start).Pairwise (· ≤ ·) := by
  induction pieces generalizing number start with
  | nil => exact .nil
  | cons cs pieces ih =>
    rw [numbered, List.map_cons]
    refine .cons (fun other hother => ?_) (ih _ _)
    obtain ⟨line, hline, rfl⟩ := List.mem_map.1 hother
    have hstart := start_le_of_mem_numbered hline
    simp only at hstart ⊢
    omega

namespace Source

variable {starts : List Nat} {offset low high : Nat}

theorem encloses_searchBetween (hsorted : starts.Pairwise (· ≤ ·)) (hle : low ≤ high)
    (hhigh : high ≤ starts.length) (h : Encloses (· ≤ offset) starts low high) :
    let place := searchBetween starts offset low high hhigh
    Encloses (· ≤ offset) starts place place := by
  have hturns : TurnsOnce (· ≤ offset) starts := hsorted.imp fun hle hstart =>
    decide_eq_true (Nat.le_trans hle (of_decide_eq_true hstart))
  fun_induction searchBetween starts offset low high hhigh with
  | case1 low high hhigh hlow hbehind ih =>
    exact ih (by omega) (h.lower hturns _ (decide_eq_false (by omega)))
  | case2 low high hhigh hlow hupTo ih =>
    exact ih (by omega) (h.raise hturns _ (decide_eq_true (by omega)))
  | case3 low high hhigh hlow =>
    obtain rfl : low = high := by omega
    exact h

variable {s : Source}

/-- The last of the first numbers. -/
theorem getLastD_take {place : Nat} (h : place + 1 ≤ starts.length) :
    (starts.take (place + 1)).getLastD 0 = starts.getD place 0 := by
  rw [List.take_succ_eq_append_getElem h, List.getLastD_concat, List.getElem_eq_getD]

/-- A place that is looked up is found by halving. -/
theorem positionBySearch_eq (s : Source) (offset : Nat) :
    s.positionBySearch offset = s.position offset := by
  have hsorted : s.lineStarts.Pairwise (· ≤ ·) := by
    unfold lineStarts
    rw [lines_eq]
    exact pairwise_start_numbered _ _ _
  have hplace := encloses_searchBetween hsorted (Nat.zero_le _) Nat.le.refl
    (encloses_all (· ≤ offset) s.lineStarts)
  unfold positionBySearch position
  simp only
  generalize searchBetween s.lineStarts offset 0 s.lineStarts.length _ = place at *
  rw [hplace.takeWhile_eq, List.length_take, Nat.min_eq_left hplace.bound]
  cases place with
  | zero => rfl
  | succ place => rw [getLastD_take hplace.bound, Nat.add_sub_cancel]

end Source

/-! ## Reading by one rule -/

theorem offset_le_of_requireEnd {s : Source} {line : Line} (hline : line.IsIn s) {c : Cursor}
    (hc : c.IsOn line) {below : List Line} (hbelow : ∀ other ∈ below, other.IsIn s) :
    FailsWith (requireEnd c below) fun stray => stray.offset ≤ s.chars.length := by
  unfold requireEnd
  split
  · split
    · exact failsWith_pure ()
    · rename_i other hother
      rintro _ ⟨⟩
      exact other.isOn_cursor.skipGap.offset_le (hbelow other (List.mem_of_find?_eq_some hother))
  · rintro _ ⟨⟩
    exact hc.skipGap.offset_le hline

namespace Scan

variable {s : Source} {line : Line} {below : List Line}

theorem StaysOn.map {scan : Scan Token} (h : StaysOn s line scan) :
    StaysOn s line ((·, below) <$> scan) := h.bind fun t => staysOn_pure (t, below)

/-- Whatever rule a text is read by, reading stays on the line it starts on. -/
theorem staysOn_ofRule? (h : LinesFrom s line.start (line :: below)) {rule : Rule}
    {scan : Scan (Token × List Line)} (hscan : ofRule? rule below = some scan) :
    StaysOn s line scan := by
  have hline := h.isIn
  cases rule with
  | option => exact Option.some.inj hscan ▸ (staysOn_option hline).map
  | includeFile => exact Option.some.inj hscan ▸ (staysOn_includeFile hline).map
  | unit => exact Option.some.inj hscan ▸ (staysOn_unit hline).map
  | statement => exact Option.some.inj hscan ▸ staysOn_statement h
  | custom | openAccount | closeAccount | pad | balance | price | transaction =>
    exact Option.some.inj hscan ▸ staysOn_dated h _
  | posting => exact Option.some.inj hscan ▸ (staysOn_posting hline).map
  | date | string | account | currency =>
    exact Option.some.inj hscan ▸ (staysOn_lexeme hline _).map
  | amount => exact Option.some.inj hscan ▸ (staysOn_amount hline).map
  | amountWithPrice => exact Option.some.inj hscan ▸ (staysOn_amountWithPrice hline).map
  | ledger | txnHeader | txnState | txnList | nominal => contradiction

/-- What is left below is left of the lines below. -/
theorem left_of_ofRule? {rule : Rule} {scan : Scan (Token × List Line)}
    (hscan : ofRule? rule below = some scan) {c next : Cursor} {t : Token} {left : List Line}
    (hrun : scan c = .ok ((t, left), next)) : left ⊆ below := by
  have hsub (h : left = below ∨ left = below.dropWhile (·.isIndented)) : left ⊆ below := by
    rcases h with rfl | rfl
    · exact List.Subset.refl _
    · exact (List.dropWhile_sublist _).subset
  have hmap {scan : Scan Token} (h : ((·, below) <$> scan) c = .ok ((t, left), next)) :
      left ⊆ below := hsub (.inl (map_apply_eq_ok_iff.1 h).1)
  cases rule with
  | statement =>
    cases hscan
    obtain ⟨d, hdated, _⟩ := statement_eq_ok_iff.1 hrun
    exact hsub (dated_left hdated)
  | custom | openAccount | closeAccount | pad | balance | price | transaction =>
    cases hscan
    exact hsub (dated_left hrun)
  | option | includeFile | unit | posting | date | string | account | currency | amount
  | amountWithPrice =>
    cases hscan
    exact hmap hrun
  | ledger | txnHeader | txnState | txnList | nominal => contradiction

end Scan

/-! ## Errors -/

theorem LinesFrom.fromLine {s : Source} {start : Nat} {above below : List Line} {line : Line}
    (h : LinesFrom s start (above ++ line :: below)) : LinesFrom s line.start (line :: below) := by
  induction above generalizing start with
  | nil =>
    obtain rfl := h.start_eq
    exact h
  | cons _ above ih => exact ih h.tail

/-- The error names the source and the place, and shows the line of the place. The place is on that
line, or just behind it. -/
structure ParseError.PointsAt (error : ParseError) (s : Source) (place : Position) : Prop where
  source_eq : error.source = s.name
  position_eq : error.position = some place
  one_le_line : 1 ≤ place.line
  line_le : place.line ≤ (pieces s.chars).length
  one_le_column : 1 ≤ place.column
  lineText_eq : ∃ cs, (pieces s.chars)[place.line - 1]? = some cs ∧
    error.lineText = .ofList cs ∧ place.column ≤ cs.length + 1

namespace Source

variable {s : Source}

theorem pointsAt_located {stray : Stray} (h : stray.offset ≤ s.chars.length) :
    (s.located stray).PointsAt s (s.countedPosition stray.offset) := by
  obtain ⟨line, hmem, hline, hstart, hstop, hposition, hlineAt⟩ := exists_line_of_offset h
  obtain ⟨above, below, hlines⟩ := List.append_of_mem hmem
  rw [lines_eq] at hlines
  have hnumber : line.number = 1 + above.length := number_of_numbered hlines
  have hpieces : pieces s.chars = above.map Line.chars ++ line.chars :: below.map Line.chars := by
    rw [← numbered_chars 1 0 (pieces s.chars), hlines, List.map_append, List.map_cons]
  have hcounted :
      s.countedPosition stray.offset = ⟨line.number, stray.offset - line.start + 1⟩ := by
    rw [← position_eq_countedPosition h, hposition]
  rw [hcounted]
  refine ⟨rfl, by rw [located, hposition], by simp only; omega, ?_, Nat.le_add_left 1 _,
    line.chars, ?_, by rw [located, hlineAt], ?_⟩
  · simp only [hpieces, hnumber, List.length_append, List.length_map, List.length_cons]
    omega
  · simp [hpieces, hnumber]
  · unfold Line.stop at hstop
    simp only
    omega

theorem offset_le_of_rule {rule : Rule} {scan : Scan (Token × List Line)}
    (hscan : Scan.ofRule? rule (firstPlace s.firstLine s.laterLines).2 = some scan) :
    FailsWith (do
      let ((token, left), stop) ← scan (firstPlace s.firstLine s.laterLines).1
      requireEnd stop left
      return token) fun stray => stray.offset ≤ s.chars.length := by
  obtain ⟨vacants, line, below, hlines, -, hplace⟩ := firstPlace_spec s.firstLine s.laterLines
  have hfrom : LinesFrom s line.start (line :: below) := by
    have hall := s.linesFrom_lines
    rw [lines, hlines] at hall
    exact hall.fromLine
  obtain ⟨start, hstart, hon⟩ : ∃ start : Cursor,
      firstPlace s.firstLine s.laterLines = (start, below) ∧ start.IsOn line := by
    rcases hplace with ⟨-, hplace⟩ | ⟨-, rfl, hplace⟩
    · exact ⟨_, hplace, line.isOn_cursor.skipGap⟩
    · exact ⟨_, hplace, rfl, Nat.le_refl _⟩
  rw [hstart] at hscan ⊢
  have hstays := Scan.staysOn_ofRule? hfrom hscan
  intro stray hrun
  cases hread : scan start with
  | error other =>
    rw [hread] at hrun
    cases hrun
    exact hstays.offset_le hon hread
  | ok found =>
    obtain ⟨⟨token, left⟩, stop⟩ := found
    rw [hread] at hrun
    have hleft := Scan.left_of_ofRule? hscan hread
    exact ((offset_le_of_requireEnd hfrom.isIn (hstays.isOn hon hread) fun other hother =>
      hfrom.tail.isIn_of_mem other (hleft hother)).bind fun _ => failsWith_pure token) stray hrun

theorem pointsAt_of_tokens (s : Source) : FailsWith s.tokens fun error =>
    ∃ offset ≤ s.chars.length, error.PointsAt s (s.countedPosition offset) :=
  failsWith_mapError fun stray hstray =>
    have hle := offset_le_of_directives s.linesFrom_lines stray hstray
    ⟨stray.offset, hle, pointsAt_located hle⟩

theorem pointsAt_of_token {rule : Rule} {error : ParseError}
    (hrun : s.token rule = .error (.stray error)) :
    ∃ offset ≤ s.chars.length, error.PointsAt s (s.countedPosition offset) := by
  unfold token at hrun
  split at hrun
  · cases hread : s.tokens with
    | ok children =>
      rw [hread] at hrun
      contradiction
    | error other =>
      rw [hread] at hrun
      cases hrun
      exact pointsAt_of_tokens s error hread
  · simp only at hrun
    split at hrun
    · cases hrun
    · rename_i scan hscan
      have hinside := offset_le_of_rule hscan
      generalize (scan _ >>= _) = result at hrun hinside
      cases result with
      | ok t => contradiction
      | error stray =>
        cases hrun
        exact ⟨stray.offset, hinside stray rfl, pointsAt_located (hinside stray rfl)⟩

/-- Where a text cannot be read, as a whole or by a rule, the error points at the place in it.
Looked up by halving the table of line starts, any place up to the end of the text is the one
counted. -/
theorem errors_point_inside (text : String) (name : Option String) :
    let s := ofText text name
    (∀ error, s.tokens = .error error →
      ∃ offset ≤ s.chars.length, error.PointsAt s (s.countedPosition offset)) ∧
    (∀ rule error, s.token rule = .error (.stray error) →
      ∃ offset ≤ s.chars.length, error.PointsAt s (s.countedPosition offset)) ∧
    ∀ offset ≤ s.chars.length, s.position offset = s.countedPosition offset ∧
      s.positionBySearch offset = s.countedPosition offset := by
  intro s
  refine ⟨pointsAt_of_tokens s, fun rule error => pointsAt_of_token, fun offset hoffset => ?_⟩
  rw [positionBySearch_eq]
  exact ⟨position_eq_countedPosition hoffset, position_eq_countedPosition hoffset⟩

/-- A header with nothing below it. -/
def bareHeader : Source := ofText "2021-10-28 * \"Rent\"\r\n" "rent"

/-- Postings are expected on the last line, an empty one. -/
theorem errors_point_inside_bareHeader :
    (∃ error, bareHeader.tokens = .error error ∧ error.PointsAt bareHeader ⟨2, 1⟩) ∧
    (∃ error, bareHeader.token .transaction = .error (.stray error) ∧
      error.PointsAt bareHeader ⟨2, 1⟩) ∧
    bareHeader.positionBySearch 20 = ⟨2, 1⟩ := by
  obtain ⟨htokens, htoken, hplaces⟩ := errors_point_inside "2021-10-28 * \"Rent\"\r\n" "rent"
  let error := bareHeader.located ⟨20, .posting⟩
  have hcounted : bareHeader.countedPosition 20 = ⟨2, 1⟩ := by decide +kernel
  have hposition : error.position = some ⟨2, 1⟩ := by decide +kernel
  have hplace (h : ∃ offset ≤ bareHeader.chars.length,
      error.PointsAt bareHeader (bareHeader.countedPosition offset)) :
      error.PointsAt bareHeader ⟨2, 1⟩ := by
    obtain ⟨offset, -, hpoints⟩ := h
    rwa [← Option.some.inj (hpoints.position_eq.symm.trans hposition)]
  have hread : (fun _ => ()) <$> bareHeader.tokens = .error error := by decide +kernel
  have hreadRule : (fun _ => ()) <$> bareHeader.token .transaction = .error (.stray error) := by
    decide +kernel
  rw [map_eq_error_iff] at hread hreadRule
  exact ⟨⟨error, hread, hplace (htokens error hread)⟩,
    ⟨error, hreadRule, hplace (htoken .transaction error hreadRule)⟩,
    (hplaces 20 (by decide +kernel)).2.trans hcounted⟩

end Source

end DoubleEntry
