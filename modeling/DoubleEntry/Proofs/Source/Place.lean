import DoubleEntry.Proofs.Source.Append
import DoubleEntry.Proofs.Token.Filler

/-! Slices of a source: stretches that tokens fill, and lines. -/
namespace DoubleEntry

open Text

/-! ## Slices -/

namespace Source

variable {s : Source}

theorem slice_self (s : Source) (start : Nat) : s.slice start start = [] := by
  unfold slice
  rw [Nat.sub_self, List.take_zero]

theorem slice_append {start middle stop : Nat} (h : start ≤ middle) (h' : middle ≤ stop) :
    s.slice start middle ++ s.slice middle stop = s.slice start stop := by
  unfold slice
  rw [show stop - start = (middle - start) + (stop - middle) by omega, List.take_add,
    List.drop_drop, Nat.add_sub_cancel' h]

theorem length_slice {start stop : Nat} (h : stop ≤ s.chars.length) :
    (s.slice start stop).length = stop - start := by
  unfold slice
  rw [List.length_take, List.length_drop]
  omega

theorem take_append_slice {start stop : Nat} (h : start ≤ stop) :
    s.chars.take start ++ s.slice start stop = s.chars.take stop := by
  unfold slice
  rw [← List.take_add, Nat.add_sub_cancel' h]

theorem exists_slices_of_append {start stop : Nat} {cs ds : List Char}
    (hle : start ≤ stop) (hstop : stop ≤ s.chars.length) (h : s.slice start stop = cs ++ ds) :
    ∃ middle, start ≤ middle ∧ middle ≤ stop ∧ s.slice start middle = cs ∧
      s.slice middle stop = ds := by
  have hlength := congrArg List.length h
  rw [length_slice hstop, List.length_append] at hlength
  have hmiddle : start + cs.length ≤ stop := by omega
  have hfirst : s.slice start (start + cs.length) = cs := by
    have htake := congrArg (List.take cs.length) h
    rw [List.take_left, slice, List.take_take, Nat.min_eq_left (by omega)] at htake
    rwa [slice, Nat.add_sub_cancel_left]
  refine ⟨start + cs.length, Nat.le_add_right _ _, hmiddle, hfirst, ?_⟩
  rw [← slice_append (Nat.le_add_right _ _) hmiddle, hfirst] at h
  exact List.append_cancel_left h

/-- Before the offset stands a character that is not blank. -/
def InkBefore (s : Source) (offset : Nat) : Prop :=
  ∃ c, (s.chars.take offset).getLast? = some c ∧ isBlank c = false

theorem inkBefore_of_slice {start stop : Nat} {front : List Char} {last : Char}
    (hle : start ≤ stop) (h : s.slice start stop = front ++ [last]) (hlast : isBlank last = false) :
    s.InkBefore stop := by
  refine ⟨last, ?_, hlast⟩
  rw [← take_append_slice hle, h, ← List.append_assoc, List.getLast?_concat]

/-- No ink stands where there are only blanks. -/
theorem InkBefore.le_of_blanks {last trimmed stop : Nat}
    (h : s.InkBefore last) (hlast : last ≤ stop) (hstop : stop ≤ s.chars.length)
    (hblanks : ∀ c ∈ s.slice trimmed stop, isBlank c = true) : last ≤ trimmed := by
  by_contra hlt
  have hle : trimmed ≤ last := by omega
  obtain ⟨c, hc, hink⟩ := h
  rw [← take_append_slice hle, List.getLast?_append] at hc
  have hmem : c ∈ s.slice trimmed last := by
    cases hslice : (s.slice trimmed last).getLast? with
    | none =>
      have hlength : (s.slice trimmed last).length = last - trimmed :=
        length_slice (Nat.le_trans hlast hstop)
      rw [List.getLast?_eq_none_iff.1 hslice, List.length_nil] at hlength
      omega
    | some d =>
      rw [hslice] at hc
      cases hc
      exact List.mem_of_getLast? hslice
  have hblank : isBlank c = true := by
    apply hblanks
    rw [← slice_append hle hlast]
    exact List.mem_append_left _ hmem
  rw [hblank] at hink
  contradiction

end Source

/-! ## Tokens with fillers around them -/

section

variable {s : Source} {t : Token} {ts us : List Token} {start middle stop : Nat}

mutual

theorem Token.Covers.le {t : Token} {start stop : Nat} (h : t.Covers s start stop) :
    start ≤ stop := by
  cases h with
  | leaf hlt _ _ => exact Nat.le_of_lt hlt
  | node _ _ hfill => exact hfill.le.1
  | list hfill => exact hfill.le.1

theorem TokensFill.le {ts : List Token} {start stop : Nat} (h : TokensFill s ts start stop) :
    start ≤ stop ∧ stop ≤ s.chars.length := by
  cases h with
  | nil hle hlength _ => exact ⟨hle, hlength⟩
  | cons hle _ hcovers hfill =>
    exact ⟨Nat.le_trans hle (Nat.le_trans hcovers.le hfill.le.1), hfill.le.2⟩

end

theorem TokensFill.filler_append (h : start ≤ middle) (hfiller : Filler (s.slice start middle))
    (hfill : TokensFill s ts middle stop) : TokensFill s ts start stop := by
  cases hfill with
  | nil hle hlength hrest =>
    refine .nil (Nat.le_trans h hle) hlength ?_
    rw [← Source.slice_append h hle]
    exact hfiller.append hrest
  | cons hle hrest hcovers hfill =>
    refine .cons (Nat.le_trans h hle) ?_ hcovers hfill
    rw [← Source.slice_append h hle]
    exact hfiller.append hrest

theorem TokensFill.append (h : TokensFill s ts start middle) (h' : TokensFill s us middle stop) :
    TokensFill s (ts ++ us) start stop := by
  induction ts generalizing start with
  | nil =>
    cases h with
    | nil hle _ hfiller => exact h'.filler_append hle hfiller
  | cons t ts ih =>
    cases h with
    | cons hle hfiller hcovers hfill => exact .cons hle hfiller hcovers (ih hfill)

theorem TokensFill.single (h : t.Covers s start stop)
    (hstop : stop ≤ s.chars.length) : TokensFill s [t] start stop := by
  refine .cons (Nat.le_refl _) ?_ h (.nil (Nat.le_refl _) hstop ?_)
  · rw [Source.slice_self]
    exact .nil
  · rw [Source.slice_self]
    exact .nil

/-- Every one of the tokens stands between the two offsets. -/
theorem TokensFill.exists_covers (h : TokensFill s ts start stop) (ht : t ∈ ts) :
    ∃ a b, start ≤ a ∧ b ≤ stop ∧ t.Covers s a b := by
  induction ts generalizing start with
  | nil => contradiction
  | cons first ts ih =>
    cases h with
    | cons hle _ hcovers hfill =>
      rcases List.mem_cons.1 ht with rfl | ht
      · exact ⟨_, _, hle, hfill.le.1, hcovers⟩
      · obtain ⟨a, b, ha, hb, hcovered⟩ := ih hfill ht
        exact ⟨a, b, Nat.le_trans hle (Nat.le_trans hcovers.le ha), hb, hcovered⟩

theorem Token.Covers.children (h : t.Covers s start stop) (hne : t.children ≠ []) :
    TokensFill s t.children start stop := by
  cases h with
  | leaf _ _ _ => contradiction
  | node _ _ hfill => exact hfill
  | list hfill => exact hfill

/-- Tokens below a token stand inside it. -/
theorem Token.Covers.descend (h : t.Covers s start stop) {path : List Nat} {u : Token}
    (hu : t.descend? path = some u) : ∃ a b, start ≤ a ∧ b ≤ stop ∧ u.Covers s a b := by
  induction path generalizing t start stop with
  | nil =>
    cases hu
    exact ⟨start, stop, Nat.le_refl _, Nat.le_refl _, h⟩
  | cons i path ih =>
    rw [descend?, Option.bind_eq_some_iff] at hu
    obtain ⟨child, hchild, hu⟩ := hu
    have hmem := List.mem_of_getElem? hchild
    obtain ⟨a, b, ha, hb, hcovers⟩ := (h.children (List.ne_nil_of_mem hmem)).exists_covers hmem
    obtain ⟨a', b', ha', hb', hcovered⟩ := ih hcovers hu
    exact ⟨a', b', Nat.le_trans ha ha', Nat.le_trans hb' hb, hcovered⟩

theorem Token.Covers.text_eq (h : t.Covers s start stop) (hrule : t.rule ≠ .txnList) :
    t.text.toList = s.slice start stop ∧ t.position = s.countedPosition start := by
  cases h with
  | leaf _ _ htext => exact ⟨htext, rfl⟩
  | node _ htext _ => exact ⟨htext, rfl⟩
  | list _ => contradiction

theorem Text.exists_trimEnd_append (cs : List Char) :
    ∃ blanks, trimEnd cs ++ blanks = cs ∧ ∀ c ∈ blanks, isBlank c = true := by
  have hsplit := congrArg List.reverse
    (List.takeWhile_append_dropWhile (p := isBlank) (l := cs.reverse))
  rw [List.reverse_append, List.reverse_reverse] at hsplit
  exact ⟨_, hsplit, fun c hc => List.mem_takeWhile_imp (List.mem_reverse.1 hc)⟩

/-- Trimming leaves a slice that still holds the ink. -/
theorem Source.exists_trimEnd {last : Nat} (hstart : start ≤ last)
    (hink : s.InkBefore last) (hlast : TokensFill s [] last stop) :
    ∃ trimmed, trimEnd (s.slice start stop) = s.slice start trimmed ∧
      TokensFill s [] last trimmed ∧ TokensFill s [] trimmed stop := by
  obtain ⟨hle, hstop⟩ := hlast.le
  obtain ⟨blanks, hsplit, hblanks⟩ := exists_trimEnd_append (s.slice start stop)
  obtain ⟨trimmed, _, htrimmed, hfirst, hmore⟩ :=
    exists_slices_of_append (Nat.le_trans hstart hle) hstop hsplit.symm
  rw [← hmore] at hblanks
  have hlastLe := hink.le_of_blanks hle hstop hblanks
  refine ⟨trimmed, hfirst.symm, .nil hlastLe (Nat.le_trans htrimmed hstop) ?_,
    .nil htrimmed hstop (.of_blanks hblanks)⟩
  cases hlast with
  | nil _ _ hfiller =>
    rw [← slice_append hlastLe htrimmed] at hfiller
    exact hfiller.of_append_blanks hblanks

end

/-! ## Lines -/

/-- The line stands in the source between two line feeds, or the start or the end of the text. -/
structure Line.IsIn (s : Source) (line : Line) : Prop where
  stop_le : line.stop ≤ s.chars.length
  slice : s.slice line.start line.stop = line.chars
  free : '\n' ∉ line.chars
  number : line.number = (s.chars.take line.start).count '\n' + 1
  starts : (s.chars.take line.start).getLast?.all (· = '\n') = true

/-- All the lines from the given offset on. Behind the last there is none to start. -/
inductive LinesFrom (s : Source) : Nat → List Line → Prop
  | nil : LinesFrom s (s.chars.length + 1) []
  | cons {line : Line} {below : List Line} : line.IsIn s → LinesFrom s (line.stop + 1) below →
      LinesFrom s line.start (line :: below)

namespace Line.IsIn

variable {s : Source} {line : Line} (h : line.IsIn s)

include h

theorem take_drop {k : Nat} (hk : k ≤ line.chars.length) :
    (s.chars.drop line.start).take k = line.chars.take k := by
  have hchars := h.slice
  unfold Source.slice Line.stop at hchars
  rw [Nat.add_sub_cancel_left] at hchars
  rw [← hchars, List.take_take, Nat.min_eq_left hk]

/-- Slices of the source inside the line are slices of the line. -/
theorem slice_add {k count : Nat} (hk : k + count ≤ line.chars.length) :
    s.slice (line.start + k) (line.start + k + count) = (line.chars.drop k).take count := by
  have htake := congrArg (List.drop k) (h.take_drop hk)
  rw [List.drop_take, List.drop_take, List.drop_drop, Nat.add_sub_cancel_left] at htake
  unfold Source.slice
  rw [Nat.add_sub_cancel_left]
  exact htake

theorem slice_drop {k : Nat} (hk : k ≤ line.chars.length) :
    s.slice (line.start + k) line.stop = line.chars.drop k := by
  have hcount : k + (line.chars.length - k) = line.chars.length := Nat.add_sub_cancel' hk
  have hslice := h.slice_add (Nat.le_of_eq hcount)
  rwa [Nat.add_assoc, hcount, List.take_of_length_le (by simp)] at hslice

theorem countedPosition {k : Nat} (hk : k ≤ line.chars.length) :
    s.countedPosition (line.start + k) = ⟨line.number, k + 1⟩ := by
  have hfree : ∀ c ∈ (line.chars.take k).reverse, decide (c ≠ '\n') = true := by
    intro c hc
    rw [decide_eq_true_eq]
    rintro rfl
    exact h.free (List.mem_of_mem_take (List.mem_reverse.1 hc))
  have hcount : (line.chars.take k).count '\n' = 0 :=
    List.count_eq_zero.2 fun hmem => h.free (List.mem_of_mem_take hmem)
  have hbefore : (s.chars.take line.start).reverse.takeWhile (· ≠ '\n') = [] := by
    have hstarts := h.starts
    rw [List.getLast?_eq_head?_reverse] at hstarts
    cases hreverse : (s.chars.take line.start).reverse with
    | nil => rfl
    | cons c cs =>
      rw [hreverse] at hstarts
      rw [List.takeWhile_cons_of_neg (by simpa using hstarts)]
  unfold Source.countedPosition
  simp only
  rw [List.take_add, h.take_drop hk, List.count_append, hcount, Nat.add_zero, ← h.number,
    List.reverse_append, List.takeWhile_append_of_pos hfree, hbefore, List.append_nil,
    List.length_reverse, List.length_take, Nat.min_eq_left hk]

theorem fill (hfiller : Filler line.chars) :
    TokensFill s [] line.start line.stop :=
  .nil (Nat.le_add_right _ _) h.stop_le (h.slice.symm ▸ hfiller)

end Line.IsIn

theorem Line.filler_of_isComment {s : Source} {line : Line} (h : line.IsIn s)
    (hcomment : line.isComment = true) : Filler line.chars := by
  have hhead : (line.chars.dropWhile isBlank).head? = some commentMark := of_decide_eq_true hcomment
  refine .of_dropWhile (fun _ => id) h.free ?_
  rw [hhead]
  rfl

theorem Line.isIn_of_append {s : Source} {before chars after : List Char}
    (h : s.chars = before ++ (chars ++ after)) (hbefore : before.getLast?.all (· = '\n') = true)
    (hfree : '\n' ∉ chars) : IsIn s ⟨before.count '\n' + 1, before.length, chars⟩ := by
  have htake : s.chars.take before.length = before := by rw [h, List.take_left]
  refine ⟨?_, ?_, hfree, ?_, ?_⟩
  · rw [h, List.length_append, List.length_append]
    exact Nat.add_le_add_left (Nat.le_add_right _ _) _
  · unfold Source.slice stop
    rw [Nat.add_sub_cancel_left, h, List.drop_left, List.take_left]
  · rw [htake]
  · rwa [htake]

theorem linesFrom_numbered {s : Source} {before : List Char} {pieces : List (List Char)}
    (hpieces : pieces ≠ []) (hfree : ∀ piece ∈ pieces, '\n' ∉ piece)
    (h : s.chars = before ++ joinWith '\n' pieces)
    (hbefore : before.getLast?.all (· = '\n') = true) :
    LinesFrom s before.length (numbered (before.count '\n' + 1) before.length pieces) := by
  induction pieces generalizing before with
  | nil => contradiction
  | cons piece pieces ih =>
    rw [List.forall_mem_cons] at hfree
    rw [numbered]
    cases pieces with
    | nil =>
      have hjoin : joinWith '\n' [piece] = piece ++ [] := by simp [joinWith]
      rw [hjoin] at h
      refine .cons (Line.isIn_of_append h hbefore hfree.1) ?_
      have hend : before.length + piece.length + 1 = s.chars.length + 1 := by simp [h]
      unfold Line.stop
      rw [hend]
      exact .nil
    | cons next pieces =>
      rw [joinWith_cons_cons] at h
      refine .cons (Line.isIn_of_append h hbefore hfree.1) ?_
      have hchars : s.chars = before ++ piece ++ ['\n'] ++ joinWith '\n' (next :: pieces) := by
        simp [h]
      have hbelow := ih (by simp) hfree.2 hchars (by simp)
      have hcount : (before ++ piece ++ ['\n']).count '\n' = before.count '\n' + 1 := by
        simp [List.count_eq_zero.2 hfree.1]
      rw [hcount] at hbelow
      simpa [Line.stop, Nat.add_assoc] using hbelow

theorem Source.linesFrom_lines (s : Source) : LinesFrom s 0 s.lines := by
  rw [lines_eq]
  have hfree : ∀ piece ∈ pieces s.chars, '\n' ∉ piece := by
    intro piece hpiece hmem
    have := separator_not_mem_splitWhere s.chars piece hpiece '\n' hmem
    contradiction
  have hnil : pieces s.chars ≠ [] := List.cons_ne_nil _ _
  have hjoin : s.chars = [] ++ joinWith '\n' (pieces s.chars) := (joinWith_splitAt _ _).symm
  exact linesFrom_numbered hnil hfree hjoin rfl

namespace LinesFrom

variable {s : Source} {start stop : Nat} {line : Line} {below : List Line}

theorem isIn (h : LinesFrom s start (line :: below)) : line.IsIn s := by
  cases h with
  | cons hline _ => exact hline

theorem isIn_of_mem {lines : List Line} (h : LinesFrom s start lines) :
    ∀ line ∈ lines, line.IsIn s := by
  induction h with
  | nil => simp
  | cons hline _ ih => exact List.forall_mem_cons.2 ⟨hline, ih⟩

theorem tail (h : LinesFrom s start (line :: below)) : LinesFrom s (line.stop + 1) below := by
  cases h with
  | cons _ hbelow => exact hbelow

theorem start_eq (h : LinesFrom s start (line :: below)) : start = line.start := by
  cases h with
  | cons _ _ => rfl

/-- A line feed stands between two lines. -/
theorem slice_lineFeed (h : LinesFrom s (stop + 1) (line :: below)) :
    s.slice stop (stop + 1) = ['\n'] := by
  have hstart := h.start_eq
  have hstarts := h.isIn.starts
  have hle : stop + 1 ≤ s.chars.length := by
    rw [hstart]
    exact Nat.le_trans (Nat.le_add_right _ _) h.isIn.stop_le
  rw [← hstart, List.take_succ_eq_append_getElem hle, List.getLast?_concat] at hstarts
  unfold Source.slice
  rw [Nat.add_sub_cancel_left, List.drop_eq_getElem_cons hle, List.take_succ_cons, List.take_zero]
  simpa using hstarts

/-- Between the end of a line and the next line, or the end of the text, there is nothing but a line
feed. -/
theorem fill_lineFeed (h : LinesFrom s (stop + 1) below) :
    TokensFill s [] stop (min (stop + 1) s.chars.length) := by
  cases below with
  | nil =>
    obtain rfl : stop = s.chars.length := by
      generalize hend : stop + 1 = last at h
      cases h
      exact Nat.succ.inj hend
    rw [Nat.min_eq_right (Nat.le_succ _)]
    refine .nil (Nat.le_refl _) (Nat.le_refl _) ?_
    rw [Source.slice_self]
    exact .nil
  | cons line below =>
    have hle : stop + 1 ≤ s.chars.length := by
      rw [h.start_eq]
      exact Nat.le_trans (Nat.le_add_right _ _) h.isIn.stop_le
    rw [Nat.min_eq_left hle]
    refine .nil (Nat.le_succ _) hle ?_
    rw [h.slice_lineFeed]
    exact .blank rfl .nil

theorem fill_toNext (h : LinesFrom s (stop + 1) (line :: below)) : TokensFill s [] stop line.start := by
  have hfill := h.fill_lineFeed
  have hle : line.start ≤ s.chars.length := Nat.le_trans (Nat.le_add_right _ _) h.isIn.stop_le
  rwa [h.start_eq, Nat.min_eq_left hle] at hfill

theorem drop {body left : List Line} (h : LinesFrom s start (line :: (body ++ left))) :
    LinesFrom s ((body.getLastD line).stop + 1) left := by
  induction body generalizing start line with
  | nil => exact h.tail
  | cons next body ih =>
    rw [List.getLastD_cons]
    exact ih h.tail

theorem stop_le_stop {body left : List Line} (h : LinesFrom s start (line :: (body ++ left))) :
    line.stop ≤ (body.getLastD line).stop := by
  induction body generalizing start line with
  | nil => exact Nat.le_refl _
  | cons next body ih =>
    have hnext := h.tail
    have hstart : line.stop + 1 = next.start := hnext.start_eq
    have hstop : next.start ≤ next.stop := Nat.le_add_right _ _
    have hlast := ih hnext
    rw [List.getLastD_cons]
    omega

/-- The rest of a line and the lines below it with line feeds between. -/
theorem joinWith_eq_slice {body left : List Line} (h : LinesFrom s start (line :: (body ++ left)))
    {k : Nat} (hk : k ≤ line.chars.length) :
    joinWith '\n' (line.chars.drop k :: body.map Line.chars) =
      s.slice (line.start + k) (body.getLastD line).stop := by
  induction body generalizing start line k with
  | nil => simpa [joinWith] using (h.isIn.slice_drop hk).symm
  | cons next body ih =>
    have hnext := h.tail
    have hstart : line.stop + 1 = next.start := hnext.start_eq
    have hstop : next.start ≤ next.stop := Nat.le_add_right _ _
    have hlast := hnext.stop_le_stop
    have hjoin := ih hnext (Nat.zero_le _)
    rw [List.drop_zero, Nat.add_zero] at hjoin
    have hk' : line.start + k ≤ line.stop := Nat.add_le_add_left hk _
    rw [List.map_cons, joinWith_cons_cons, hjoin, List.getLastD_cons]
    calc
      line.chars.drop k ++ '\n' :: s.slice next.start (body.getLastD next).stop
      _ = s.slice (line.start + k) line.stop ++ (s.slice line.stop next.start ++
            s.slice next.start (body.getLastD next).stop) := by
        rw [h.isIn.slice_drop hk, ← hstart, hnext.slice_lineFeed, List.singleton_append]
      _ = s.slice (line.start + k) (body.getLastD next).stop := by
        rw [Source.slice_append (by omega) (by omega), Source.slice_append hk' (by omega)]

end LinesFrom

end DoubleEntry
