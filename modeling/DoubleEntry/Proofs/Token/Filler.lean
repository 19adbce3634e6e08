import DoubleEntry.Token.Place
import Mathlib.Data.List.TakeWhile

/-! Text that says nothing: made of blanks, comments and keywords, one after another. -/
namespace DoubleEntry

open Text

theorem isBlank_of_mem_bareWord {word : String} (h : word ∈ bareWords) {c : Char}
    (hc : c ∈ word.toList) : isBlank c = false := by
  have hall : ∀ word ∈ bareWords, word.toList.all (!isBlank ·) = true := by decide
  simpa using List.all_eq_true.1 (hall word h) c hc

namespace Filler

theorem of_blanks {cs : List Char} (h : ∀ c ∈ cs, isBlank c = true) : Filler cs := by
  induction cs with
  | nil => exact .nil
  | cons c cs ih =>
    rw [List.forall_mem_cons] at h
    exact .blank h.1 (ih h.2)

theorem of_word {word : String} (h : word ∈ bareWords) : Filler word.toList := by
  rw [← List.append_nil word.toList]
  exact .word h .nil

/-- A comment that runs to the end. -/
theorem of_comment {body : List Char} (h : '\n' ∉ body) : Filler (commentMark :: body) := by
  rw [← List.append_nil (commentMark :: body)]
  exact .comment h rfl .nil

/-- Fillers are made line by line. -/
theorem dropLine {cs : List Char} (h : Filler cs) : Filler (cs.dropWhile (· ≠ '\n')) := by
  induction h with
  | nil => exact .nil
  | @blank c cs hblank hcs ih =>
    by_cases hc : c = '\n'
    · rw [List.dropWhile_cons_of_neg (by simpa using hc)]
      exact .blank hblank hcs
    · rwa [List.dropWhile_cons_of_pos (by simpa using hc)]
  | @comment body cs hbody _ _ ih =>
    have hfree : ∀ c ∈ commentMark :: body, decide (c ≠ '\n') = true := by
      intro c hc
      rw [decide_eq_true_eq]
      rintro rfl
      rcases List.mem_cons.1 hc with hc | hc
      · contradiction
      · exact hbody hc
    rwa [List.dropWhile_append_of_pos hfree]
  | @word word cs hword _ ih =>
    have hfree : ∀ c ∈ word.toList, decide (c ≠ '\n') = true := by
      intro c hc
      rw [decide_eq_true_eq]
      rintro rfl
      have hblank := isBlank_of_mem_bareWord hword hc
      contradiction
    rwa [List.dropWhile_append_of_pos hfree]

/-- An open comment at the end of the first takes in the rest of its line. -/
theorem append {cs ds : List Char} (h : Filler cs) (hds : Filler ds) : Filler (cs ++ ds) := by
  induction h with
  | nil => exact hds
  | blank hblank _ ih => exact .blank hblank ih
  | @comment body cs hbody hend hcs ih =>
    cases cs with
    | nil =>
      have hline : '\n' ∉ ds.takeWhile (· ≠ '\n') := by
        intro hmem
        have := List.mem_takeWhile_imp hmem
        contradiction
      have hrest : (ds.dropWhile (· ≠ '\n')).head?.all (· = '\n') = true := by
        cases hdrop : ds.dropWhile (· ≠ '\n') with
        | nil => rfl
        | cons d rest =>
          have := List.head?_dropWhile_not (p := (· ≠ '\n')) ds
          rw [hdrop] at this
          simpa using this
      have hsplit : commentMark :: (body ++ ds.takeWhile (· ≠ '\n')) ++ ds.dropWhile (· ≠ '\n') =
          commentMark :: body ++ [] ++ ds := by simp
      have hfree : '\n' ∉ body ++ ds.takeWhile (· ≠ '\n') := by
        rw [List.mem_append, not_or]
        exact ⟨hbody, hline⟩
      rw [← hsplit]
      exact .comment hfree hrest hds.dropLine
    | cons c cs =>
      rw [List.append_assoc]
      exact .comment hbody hend ih
  | word hword _ ih =>
    rw [List.append_assoc]
    exact .word hword ih

/-- Blanks, and at most a comment behind them. -/
theorem of_dropWhile {p : Char → Bool} {cs : List Char} (hp : ∀ c, p c = true → isBlank c = true)
    (hfree : '\n' ∉ cs) (h : (cs.dropWhile p).head?.all (· == commentMark) = true) : Filler cs := by
  have hsplit := List.takeWhile_append_dropWhile (p := p) (l := cs)
  have hblanks : Filler (cs.takeWhile p) :=
    .of_blanks fun c hmem => hp c (List.mem_takeWhile_imp hmem)
  rw [← hsplit]
  apply hblanks.append
  cases hdrop : cs.dropWhile p with
  | nil => exact .nil
  | cons c rest =>
    rw [hdrop] at h
    obtain rfl : c = commentMark := by simpa using h
    refine .of_comment fun hmem => hfree ?_
    have hrest : '\n' ∈ cs.dropWhile p := hdrop ▸ List.mem_cons_of_mem _ hmem
    exact (List.dropWhile_sublist _).subset hrest

/-- Blanks at the end may be cut off. -/
theorem of_append_blanks {cs blanks : List Char} (h : Filler (cs ++ blanks))
    (hblanks : ∀ c ∈ blanks, isBlank c = true) : Filler cs := by
  generalize hall : cs ++ blanks = all at h
  induction h generalizing cs with
  | nil =>
    rw [(List.append_eq_nil_iff.1 hall).1]
    exact .nil
  | blank hblank _ ih =>
    cases cs with
    | nil => exact .nil
    | cons c cs =>
      cases hall
      exact .blank hblank (ih rfl)
  | @comment body rest hbody hend _ ih =>
    cases cs with
    | nil => exact .nil
    | cons c cs =>
      rw [List.cons_append, List.cons_append, List.cons.injEq] at hall
      obtain ⟨rfl, hall⟩ := hall
      -- the cut is behind the comment or in it
      obtain ⟨more, rfl, hmore⟩ | ⟨more, rfl, _⟩ := List.append_eq_append_iff.1 hall.symm
      · refine .comment hbody ?_ (ih hmore.symm)
        rw [hmore] at hend
        cases more with
        | nil => rfl
        | cons d more => exact hend
      · exact of_comment fun hmem => hbody (List.mem_append_left _ hmem)
  | @word word rest hword _ ih =>
    obtain ⟨more, rfl, hmore⟩ | ⟨more, hsplit, hmore⟩ := List.append_eq_append_iff.1 hall.symm
    · exact .word hword (ih hmore.symm)
    · cases more with
      | nil =>
        rw [← List.append_nil cs, ← hsplit]
        exact of_word hword
      | cons d more =>
        -- a word has no blank in it, so none of it is cut off
        have hink : isBlank d = false := isBlank_of_mem_bareWord hword (by simp [hsplit])
        rw [hblanks d (by simp [hmore])] at hink
        contradiction

end Filler

end DoubleEntry
