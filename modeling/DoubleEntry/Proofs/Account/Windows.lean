import DoubleEntry.Proofs.Account.Answers

/-! What changes the windows of an account, and how that changes the days on which it is open. A day
can be lost again only while the open-ended window at the end is the one window that holds it. -/
namespace DoubleEntry

namespace Window

theorem validAt_openFrom (opened day : Date) :
    (openFrom opened).validAt day = decide (opened ≤ day) := Bool.and_true _

theorem ofDates_eq_ok {opened closing : Date} {window : Window}
    (h : ofDates opened (some closing) = .ok window) :
    window.opened = opened ∧ window.closed = some closing := by
  simp only [ofDates] at h
  split at h
  · cases h
    exact ⟨rfl, rfl⟩
  · contradiction

end Window

namespace NamedAccounts

variable {n after : NamedAccounts} {account : AccountName} {day : Date} {windows : List Window}

/-- The last window is open-ended, and no earlier one holds the day. -/
def restsOnLast (windows : List Window) (day : Date) : Bool :=
  windows.getLast?.any (!·.isClosed) && !windows.dropLast.any (·.validAt day)

theorem restsOnLast_append (earlier : List Window) (last : Window) (day : Date) :
    restsOnLast (earlier ++ [last]) day =
      (!last.isClosed && !earlier.any (·.validAt day)) := by
  unfold restsOnLast
  rw [List.getLast?_concat, List.dropLast_concat]
  rfl

theorem reopen_append (earlier : List Window) (last : Window) (opened : Date) :
    reopen (earlier ++ [last]) opened =
      (if last.isClosed then earlier ++ [last] else earlier) ++ [.openFrom opened] := by
  unfold reopen
  rw [List.getLast?_concat, List.dropLast_concat]
  rfl

theorem any_append_last (earlier : List Window) (last : Window) (day : Date) :
    (earlier ++ [last]).any (·.validAt day) =
      (earlier.any (·.validAt day) || last.validAt day) := by
  rw [List.any_append, List.any_cons, List.any_nil, Bool.or_false]

theorem exists_last (h : windows.any (·.validAt day) = true) :
    ∃ earlier last, windows = earlier ++ [last] := by
  rcases List.eq_nil_or_concat windows with rfl | ⟨earlier, last, rfl⟩
  · contradiction
  · exact ⟨earlier, last, List.concat_eq_append⟩

/-- Opening an account again takes a day away exactly where the last window alone held the day, was
open-ended, and gives way to one that begins behind the day. -/
theorem any_reopen_eq_false_iff {opened : Date} (h : windows.any (·.validAt day) = true) :
    (reopen windows opened).any (·.validAt day) = false ↔
      restsOnLast windows day = true ∧ day < opened := by
  obtain ⟨earlier, last, rfl⟩ := exists_last h
  have hlate : decide (opened ≤ day) = false ↔ day < opened := by
    rw [decide_eq_false_iff_not]
    exact Nat.not_le
  rw [reopen_append, restsOnLast_append, any_append_last, Window.validAt_openFrom,
    Bool.or_eq_false_iff, hlate]
  -- a closed last window stays, and with it every day that was open
  apply and_congr_left
  intro _
  cases hclosed : last.isClosed with
  | true => simp [h]
  | false => simp

/-- Closing an account takes a day away exactly where the last window alone held the day, and closes
before it or on it. -/
theorem any_close_eq_false_iff {earlier : List Window} {last closed : Window}
    (h : (earlier ++ [last]).any (·.validAt day) = true) (hlast : last.closed = none)
    (hopened : closed.opened = last.opened) {closing : Date}
    (hclosing : closed.closed = some closing) :
    (earlier ++ [closed]).any (·.validAt day) = false ↔
      restsOnLast (earlier ++ [last]) day = true ∧ closing ≤ day := by
  have hisClosed : last.isClosed = false := by
    unfold Window.isClosed
    rw [hlast]
    rfl
  rw [any_append_last, Bool.or_eq_true] at h
  rw [restsOnLast_append, hisClosed, any_append_last, Bool.or_eq_false_iff]
  cases hearlier : earlier.any (·.validAt day) with
  | true => simp
  | false =>
    have hvalid : last.opened ≤ day := by
      rw [hearlier, or_iff_right Bool.false_ne_true] at h
      simpa [Window.validAt, hlast] using h
    have hlate : decide (day < closing) = false ↔ closing ≤ day := by
      rw [decide_eq_false_iff_not]
      exact Nat.not_lt
    have hclosed : closed.validAt day = decide (day < closing) := by
      simp [Window.validAt, hopened, hclosing, hvalid]
    rw [hclosed, hlate]
    simp

/-! ## Changes of one account -/

theorem windowsOf_openAt (n : NamedAccounts) (account account' : AccountName) (opened : Date) :
    (n.openAt account' opened).windowsOf account =
      if account' = account then reopen (n.windowsOf account) opened else n.windowsOf account := by
  unfold windowsOf openAt
  rw [KeyedList.get?_alter]
  by_cases h : account' = account
  · subst h
    rw [if_pos rfl, if_pos rfl]
    rfl
  · rw [if_neg h, if_neg h]

/-- Closing an account gives its open-ended last window an end. -/
theorem windowsOf_closeAt {account' : AccountName} {closing : Date}
    (h : n.closeAt account' closing = .ok after) :
    ∃ earlier last closed, n.windowsOf account' = earlier ++ [last] ∧ last.closed = none ∧
      closed.opened = last.opened ∧ closed.closed = some closing ∧
      after.windowsOf account =
        if account' = account then earlier ++ [closed] else n.windowsOf account := by
  unfold closeAt at h
  split at h
  · contradiction
  rename_i opened closed hle hlast
  split at h
  · contradiction
  split at h
  · contradiction
  rename_i window hwindow
  cases h
  obtain ⟨earlier, hwindows⟩ := List.getLast?_eq_some_iff.1 hlast
  obtain ⟨hopened, hclosing⟩ := Window.ofDates_eq_ok hwindow
  refine ⟨earlier, _, window, hwindows, rfl, hopened, hclosing, ?_⟩
  rw [hwindows, List.dropLast_concat]
  unfold windowsOf KeyedList.insert
  rw [KeyedList.get?_alter]
  by_cases h : account' = account
  · rw [if_pos h, if_pos h]
    rfl
  · rw [if_neg h, if_neg h]

/-- An opening takes a day away from an account only if it is of that account and begins behind the
day. -/
theorem isOpen_openAt_eq_false_iff {account' : AccountName} {opened : Date}
    (h : n.isOpen account day = true) :
    (n.openAt account' opened).isOpen account day = false ↔
      account' = account ∧ restsOnLast (n.windowsOf account) day = true ∧ day < opened := by
  by_cases haccount : account' = account
  · rw [isOpen, windowsOf_openAt, if_pos haccount, and_iff_right haccount]
    exact any_reopen_eq_false_iff h
  · have hsame : (n.openAt account' opened).isOpen account day = n.isOpen account day := by
      rw [isOpen, windowsOf_openAt, if_neg haccount, isOpen]
    rw [hsame, h]
    exact iff_of_false Bool.false_ne_true.symm fun hgone => haccount hgone.1

theorem isOpen_closeAt_eq_false_iff {account' : AccountName} {closing : Date}
    (hclose : n.closeAt account' closing = .ok after) (h : n.isOpen account day = true) :
    after.isOpen account day = false ↔
      account' = account ∧ restsOnLast (n.windowsOf account) day = true ∧ closing ≤ day := by
  obtain ⟨earlier, last, closed, hwindows, hlast, hopened, hclosing, hafter⟩ :=
    @windowsOf_closeAt n after account account' closing hclose
  by_cases haccount : account' = account
  · subst haccount
    rw [isOpen, hwindows] at h
    rw [isOpen, hafter, if_pos rfl, and_iff_right rfl, hwindows]
    exact any_close_eq_false_iff h hlast hopened hclosing
  · have hsame : after.isOpen account day = n.isOpen account day := by
      rw [isOpen, hafter, if_neg haccount, isOpen]
    rw [hsame, h]
    exact iff_of_false Bool.false_ne_true.symm fun hgone => haccount hgone.1

end NamedAccounts

/-- An account that may be used on a day is open on that day. -/
theorem AccountRegistry.isOpen_of_resolve {r : AccountRegistry} {account : AccountName}
    {ref : AccountRef} {day : Date} (h : r.resolve account day = .ok ref) :
    r.isOpen account day = true := by
  unfold resolve at h
  split at h
  · contradiction
  split at h
  · contradiction
  rename_i found href
  split at h
  · contradiction
  rename_i windows hwindows
  split at h
  · rename_i hvalid
    unfold isOpen windowsOf
    rw [href, Option.bind_some, hwindows]
    exact hvalid
  · contradiction

end DoubleEntry
