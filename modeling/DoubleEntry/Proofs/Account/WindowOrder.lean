import DoubleEntry.Proofs.Account.Answers
import DoubleEntry.Proofs.Account.Windows

/-! The order of the windows of an account. Only the last is ever open-ended, for an opening takes
the place of an open-ended one; and where the days of the changes never go back, each window ends
before the next begins. -/
namespace DoubleEntry

/-- The day on which the windows of an account were changed, if the request was granted. -/
def AccountRequest.changeDay? (account : AccountName) :
    AccountRequest × AccountAnswer → Option Date
  | (.openAt account' day, .ref (.ok _)) | (.closeAt account' day, .ref (.ok _)) =>
    if account' = account then some day else none
  | _ => none

/-- The days on which the windows of an account were changed, in the order of the requests. -/
def AccountStore.changeDays {σ : Type} (store : AccountStore σ) (requests : List AccountRequest)
    (account : AccountName) : List Date :=
  (requests.zip (store.answers requests)).filterMap (AccountRequest.changeDay? account)

/-- One window is closed by the time the other opens. -/
def Window.EndsBefore (w w' : Window) : Prop := ∃ closing ∈ w.closed, closing ≤ w'.opened

/-- Windows that come of changes on the given days. -/
inductive WindowHistory : List Date → List Window → Prop
  | start : WindowHistory [] []
  | opening {days : List Date} {windows : List Window} (h : WindowHistory days windows)
      (day : Date) : WindowHistory (days ++ [day]) (NamedAccounts.reopen windows day)
  | closing {days : List Date} {earlier : List Window} {last closed : Window} {day : Date}
      (h : WindowHistory days (earlier ++ [last])) (hopened : closed.opened = last.opened)
      (hclosed : closed.closed = some day) : WindowHistory (days ++ [day]) (earlier ++ [closed])

/-- What an opening keeps is closed. -/
theorem NamedAccounts.exists_kept_of_reopen {windows : List Window}
    (h : ∀ w ∈ windows.dropLast, w.isClosed = true) (day : Date) :
    ∃ kept, reopen windows day = kept ++ [.openFrom day] ∧ kept.Sublist windows ∧
      ∀ w ∈ kept, w.isClosed = true := by
  rcases List.eq_nil_or_concat windows with rfl | ⟨earlier, last, rfl⟩
  · exact ⟨[], rfl, .slnil, by simp⟩
  rw [List.concat_eq_append] at h ⊢
  rw [List.dropLast_concat] at h
  rw [reopen_append]
  cases hlast : last.isClosed with
  | true =>
    refine ⟨earlier ++ [last], rfl, .refl _, fun w hw => ?_⟩
    rcases List.mem_append.1 hw with hw | hw
    · exact h w hw
    · rw [List.mem_singleton.1 hw, hlast]
  | false => exact ⟨earlier, rfl, List.sublist_append_left earlier [last], h⟩

namespace WindowHistory

variable {days : List Date} {windows : List Window}

theorem earlier_closed (h : WindowHistory days windows) :
    ∀ w ∈ windows.dropLast, w.isClosed = true := by
  induction h with
  | start => simp
  | opening _ day ih =>
    obtain ⟨kept, hreopen, _, hclosed⟩ := NamedAccounts.exists_kept_of_reopen ih day
    rw [hreopen, List.dropLast_concat]
    exact hclosed
  | closing _ _ _ ih =>
    rw [List.dropLast_concat] at ih ⊢
    exact ih

/-- Windows open and close on the days of changes only. -/
theorem mem_days (h : WindowHistory days windows) {w : Window} (hw : w ∈ windows) :
    w.opened ∈ days ∧ ∀ closing ∈ w.closed, closing ∈ days := by
  induction h generalizing w with
  | start => contradiction
  | opening h day ih =>
    obtain ⟨kept, hreopen, hkept, _⟩ := NamedAccounts.exists_kept_of_reopen h.earlier_closed day
    rw [hreopen, List.mem_append, List.mem_singleton] at hw
    rcases hw with hw | rfl
    · obtain ⟨hopened, hclosed⟩ := ih (hkept.subset hw)
      exact ⟨List.mem_append_left _ hopened,
        fun closing hclosing => List.mem_append_left _ (hclosed closing hclosing)⟩
    · simp [Window.openFrom]
  | closing h hopened hclosed ih =>
    rcases List.mem_append.1 hw with hw | hw
    · obtain ⟨hopened, hclosed⟩ := ih (List.mem_append_left _ hw)
      exact ⟨List.mem_append_left _ hopened,
        fun closing hclosing => List.mem_append_left _ (hclosed closing hclosing)⟩
    · obtain ⟨hlast, _⟩ := ih (List.mem_append_right _ (List.mem_singleton_self _))
      rw [List.mem_singleton.1 hw, hopened, hclosed]
      simp [hlast]

/-- Where the days never go back, neither do the windows. -/
theorem pairwise_endsBefore (h : WindowHistory days windows) (hdays : days.Pairwise (· ≤ ·)) :
    windows.Pairwise Window.EndsBefore := by
  induction h with
  | start => exact .nil
  | opening h day ih =>
    obtain ⟨hdays, _, hlate⟩ := List.pairwise_append.1 hdays
    obtain ⟨kept, hreopen, hkept, hclosed⟩ :=
      NamedAccounts.exists_kept_of_reopen h.earlier_closed day
    rw [hreopen]
    refine List.pairwise_append.2 ⟨(ih hdays).sublist hkept, List.pairwise_singleton _ _, ?_⟩
    rintro w hw w' hw'
    rw [List.mem_singleton.1 hw']
    obtain ⟨closing, hclosing⟩ := Option.isSome_iff_exists.1 (hclosed w hw)
    obtain ⟨_, hmem⟩ := h.mem_days (hkept.subset hw)
    exact ⟨closing, hclosing, hlate closing (hmem closing hclosing) day (List.mem_singleton_self _)⟩
  | closing h hopened hclosed ih =>
    obtain ⟨hdays, _, _⟩ := List.pairwise_append.1 hdays
    obtain ⟨hearlier, _, hlast⟩ := List.pairwise_append.1 (ih hdays)
    refine List.pairwise_append.2 ⟨hearlier, List.pairwise_singleton _ _, ?_⟩
    rintro w hw w' hw'
    rw [List.mem_singleton.1 hw']
    -- closing the last window does not move its opening
    obtain ⟨closing, hclosing, hle⟩ := hlast w hw _ (List.mem_singleton_self _)
    exact ⟨closing, hclosing, hopened ▸ hle⟩

end WindowHistory

/-! ## Requests -/

namespace NamedAccounts

variable {n : NamedAccounts} {account : AccountName} {days : List Date}

theorem history_answer (h : WindowHistory days (n.windowsOf account)) (request : AccountRequest) :
    WindowHistory
      (days ++ (AccountRequest.changeDay? account (request, (store.answer n request).2)).toList)
      ((store.answer n request).1.windowsOf account) := by
  have hsame : WindowHistory (days ++ []) (n.windowsOf account) := by rwa [List.append_nil]
  cases request with
  | openAt account' day =>
    simp only [AccountStore.answer, store, AccountRequest.changeDay?, windowsOf_openAt]
    by_cases haccount : account' = account
    · subst haccount
      rw [if_pos rfl, if_pos rfl]
      exact h.opening day
    · rw [if_neg haccount, if_neg haccount]
      exact hsame
  | closeAt account' day =>
    simp only [AccountStore.answer, store]
    cases hclose : n.closeAt account' day with
    | error error => exact hsame
    | ok after =>
      obtain ⟨earlier, last, closed, hwindows, _, hopened, hclosed, hafter⟩ :=
        @windowsOf_closeAt n after account account' day hclose
      simp only [AccountRequest.changeDay?, hafter]
      by_cases haccount : account' = account
      · subst haccount
        rw [if_pos rfl, if_pos rfl]
        exact (hwindows ▸ h).closing hopened hclosed
      · rw [if_neg haccount, if_neg haccount]
        exact hsame
  | _ => exact hsame

theorem history_run (h : WindowHistory days (n.windowsOf account))
    (requests : List AccountRequest) :
    WindowHistory
      (days ++ (requests.zip (store.run n requests).2).filterMap
        (AccountRequest.changeDay? account))
      ((store.run n requests).1.windowsOf account) := by
  induction requests generalizing n days with
  | nil => rwa [List.zip_nil_left, List.filterMap_nil, List.append_nil]
  | cons request rest ih =>
    have hrest := ih (history_answer h request)
    rw [List.append_assoc] at hrest
    simp only [AccountStore.run, List.zip_cons_cons, List.filterMap_cons]
    cases hday : AccountRequest.changeDay? account (request, (store.answer n request).2) with
    | none => simpa only [hday, Option.toList_none, List.nil_append] using hrest
    | some day => simpa only [hday, Option.toList_some, List.singleton_append] using hrest

theorem history_after (requests : List AccountRequest) (account : AccountName) :
    WindowHistory (store.changeDays requests account)
      ((store.after requests).windowsOf account) :=
  history_run (n := empty) .start requests

end NamedAccounts

/-! ## Windows in order -/

namespace Window

variable {w w' : Window} {windows : List Window} {day : Date}

theorem validAt_iff :
    w.validAt day = true ↔ w.opened ≤ day ∧ ∀ closing ∈ w.closed, day < closing := by
  unfold validAt
  cases w.closed <;> simp

theorem EndsBefore.lt_of_validAt (h : w.EndsBefore w') (hvalid : w.validAt day = true) :
    day < w'.opened := by
  obtain ⟨closing, hclosing, hle⟩ := h
  exact Nat.lt_of_lt_of_le ((validAt_iff.1 hvalid).2 closing hclosing) hle

theorem EndsBefore.opened_le (h : w.EndsBefore w') : w.opened ≤ w'.opened := by
  obtain ⟨closing, hclosing, hle⟩ := h
  exact Nat.le_trans (w.opened_le_closed closing hclosing) hle

theorem countP_validAt_le_one (h : windows.Pairwise EndsBefore) (day : Date) :
    windows.countP (·.validAt day) ≤ 1 := by
  induction h with
  | nil => exact Nat.zero_le 1
  | @cons w rest hw _ ih =>
    rw [List.countP_cons]
    split
    · rename_i hvalid
      have hnone : rest.countP (·.validAt day) = 0 := by
        rw [List.countP_eq_zero]
        intro w' hw' hvalid'
        exact Date.not_le.2 ((hw w' hw').lt_of_validAt hvalid) (validAt_iff.1 hvalid').1
      rw [hnone]
    · exact ih

/-- No window holds a day between the end of one and the beginning of the next. -/
theorem not_validAt_between {earlier later : List Window} {next : Window} {closing : Date}
    (h : (earlier ++ w :: next :: later).Pairwise EndsBefore) (hclosing : closing ∈ w.closed)
    (hle : closing ≤ day) (hlt : day < next.opened) :
    (earlier ++ w :: next :: later).any (·.validAt day) = false := by
  obtain ⟨_, hrest, hearlier⟩ := List.pairwise_append.1 h
  obtain ⟨_, hnext⟩ := List.pairwise_cons.1 hrest
  have hopened : w.opened ≤ day := Nat.le_trans (w.opened_le_closed closing hclosing) hle
  rw [List.any_eq_false]
  intro v hv hvalid
  rcases List.mem_append.1 hv with hv | hv
  · exact Date.not_le.2 ((hearlier v hv w List.mem_cons_self).lt_of_validAt hvalid) hopened
  rcases List.mem_cons.1 hv with rfl | hv
  · exact Date.not_le.2 ((validAt_iff.1 hvalid).2 closing hclosing) hle
  have hbegin : next.opened ≤ v.opened := by
    rcases List.mem_cons.1 hv with rfl | hv
    · exact Nat.le_refl _
    · exact (List.rel_of_pairwise_cons hnext hv).opened_le
  exact Date.not_le.2 (Nat.lt_of_lt_of_le hlt hbegin) (validAt_iff.1 hvalid).1

end Window

namespace AccountTables

variable {t : AccountTables} {account : AccountName} {day : Date}

/-- The two ways to look an account up find the same windows: it may be used exactly on the days on
which it is open. -/
theorem resolve_eq_ok_iff {ref : AccountRef} :
    t.resolve account day = .ok ref ↔
      t.ref? account = some ref ∧ t.isOpen account day = true := by
  have hlookup (indices : List Int) : t.lookup account day = .ok indices ↔
      t.ref? account = some ⟨account.kind, indices⟩ := by
    rw [lookup, mapM_orMissing_eq_ok_iff, ref?, Option.map_eq_some_iff]
    simp
  have hwindows (href : t.ref? account = some ref) :
      t.isOpen account day = ((t.windows.get? ref).getD []).any (·.validAt day) := by
    rw [isOpen, windowsOf, href, Option.bind_some]
  unfold resolve
  rw [bind_eq_ok_iff]
  constructor
  · rintro ⟨indices, hindices, h⟩
    have href := (hlookup indices).1 hindices
    simp only at h
    split at h
    · contradiction
    split at h
    · rename_i hvalid
      cases h
      exact ⟨href, (hwindows href).trans hvalid⟩
    · contradiction
  · rintro ⟨href, hopen⟩
    obtain ⟨indices, _, rfl⟩ := Option.map_eq_some_iff.1 href
    rw [hwindows href] at hopen
    have hne : (t.windows.get? ⟨account.kind, indices⟩).getD [] ≠ [] := by
      intro hnil
      rw [hnil] at hopen
      contradiction
    exact ⟨indices, (hlookup indices).2 href, by simp only [if_neg hne, if_pos hopen]⟩

theorem exists_resolve_iff :
    (∃ ref, t.resolve account day = .ok ref) ↔ t.isOpen account day = true := by
  constructor
  · rintro ⟨ref, h⟩
    exact (resolve_eq_ok_iff.1 h).2
  · intro hopen
    cases href : t.ref? account with
    | none =>
      rw [isOpen, windowsOf, href] at hopen
      contradiction
    | some ref => exact ⟨ref, resolve_eq_ok_iff.2 ⟨href, hopen⟩⟩

theorem isOpen_iff : t.isOpen account day = true ↔
    ∃ w ∈ t.windowsOf account, w.opened ≤ day ∧ ∀ closing ∈ w.closed, day < closing := by
  simp only [isOpen, List.any_eq_true, Window.validAt_iff]

/-- Tables after any requests: the windows are those of the accounts by name. -/
theorem history_after (requests : List AccountRequest) (account : AccountName) :
    WindowHistory (store.changeDays requests account)
      ((store.after requests).windowsOf account) := by
  have hanswers : store.answers requests = NamedAccounts.store.answers requests :=
    (simulates_registry.answers requests).trans
      (AccountRegistry.simulates_named.answers requests)
  have hwindows : (store.after requests).windowsOf account =
      (NamedAccounts.store.after requests).windowsOf account :=
    (simulates_registry.windowsOf (simulates_registry.after requests) account).trans
      (AccountRegistry.simulates_named.windowsOf
        (AccountRegistry.simulates_named.after requests) account)
  rw [hwindows, AccountStore.changeDays, hanswers]
  exact NamedAccounts.history_after requests account

/-- Behind a reference in the tables there is an account with windows. -/
theorem exists_account_after (requests : List AccountRequest) {ref : AccountRef}
    {windows : List Window} (h : (store.after requests).windows.get? ref = some windows) :
    windows ≠ [] ∧ ∃ account, (store.after requests).ref? account = some ref ∧
      (store.after requests).windowsOf account = windows := by
  obtain ⟨htables, named, hnamed⟩ := simulates_registry.after requests
  rw [htables] at h ⊢
  generalize AccountRegistry.store.after requests = r at h hnamed ⊢
  rw [AccountRegistry.get?_windows_tables] at h
  obtain ⟨kept, hkept, rfl⟩ := Option.map_eq_some_iff.1 h
  have hkey : ref ∈ r.windows.keys := by
    by_contra habsent
    rw [KeyedList.get?_eq_none_iff.2 habsent] at hkept
    contradiction
  obtain ⟨account, _, href⟩ := hnamed.exists_account hkey
  refine ⟨by simp [Windows.toList], account, ?_, ?_⟩
  · rw [AccountRegistry.ref?_tables, href]
  · rw [AccountRegistry.windowsOf_tables, AccountRegistry.windowsOf, href, Option.bind_some, hkept]

/-- After any requests, granted or refused: a registered account has windows, all of them closed but
perhaps the last, and none that ends before it begins; an account resolves on the days on which it
is open, which are those of its windows. If the changes of an account were granted in the order of
their days, each window ends before the next begins, no two hold the same day, and the account is
not open in between. -/
theorem windows_disciplined (requests : List AccountRequest) :
    let tables := store.after requests
    (∀ ref windows, tables.windows.get? ref = some windows →
      windows ≠ [] ∧ ∃ account, tables.ref? account = some ref ∧
        tables.windowsOf account = windows) ∧
      (∀ account, (∀ w ∈ (tables.windowsOf account).dropLast, w.isClosed = true) ∧
        ∀ w ∈ tables.windowsOf account, ∀ closing ∈ w.closed, w.opened ≤ closing) ∧
      (∀ account day,
        ((∃ ref, tables.resolve account day = .ok ref) ↔ tables.isOpen account day = true) ∧
        (tables.isOpen account day = true ↔
          ∃ w ∈ tables.windowsOf account, w.opened ≤ day ∧ ∀ closing ∈ w.closed, day < closing)) ∧
      ∀ account, (store.changeDays requests account).Pairwise (· ≤ ·) →
        (tables.windowsOf account).Pairwise Window.EndsBefore ∧
        (∀ day, (tables.windowsOf account).countP (·.validAt day) ≤ 1) ∧
        ∀ earlier w next later, tables.windowsOf account = earlier ++ w :: next :: later →
          ∀ closing ∈ w.closed, ∀ day, closing ≤ day → day < next.opened →
            tables.isOpen account day = false := by
  refine ⟨fun ref windows => exists_account_after requests, fun account => ?_,
    fun account day => ⟨exists_resolve_iff, isOpen_iff⟩, fun account hdays => ?_⟩
  · exact ⟨(history_after requests account).earlier_closed, fun w _ => w.opened_le_closed⟩
  have horder := (history_after requests account).pairwise_endsBefore hdays
  refine ⟨horder, Window.countP_validAt_le_one horder, ?_⟩
  intro earlier w next later hwindows closing hclosing day hle hlt
  rw [hwindows] at horder
  rw [isOpen, hwindows]
  exact Window.not_validAt_between horder hclosing hle hlt

open AccountStore (wallet walletDay)

def summer : Date := ⟨2028, 6, 21, by decide, by decide, by decide⟩

def autumn : Date := ⟨2028, 9, 23, by decide, by decide, by decide⟩

def winter : Date := ⟨2028, 12, 21, by decide, by decide, by decide⟩

/-- The wallet stays shut in autumn. It cannot be closed before it was opened again, nor twice. -/
def walletSeasons : List AccountRequest :=
  [.openAt wallet walletDay, .openAt wallet summer, .closeAt wallet walletDay,
    .closeAt wallet autumn, .closeAt wallet winter, .openAt wallet winter]

def walletWindows : List Window := [⟨summer, some autumn, by decide⟩, .openFrom winter]

theorem windows_disciplined_wallet :
    let tables := store.after walletSeasons
    (tables.windows.get? ⟨.assets, [0]⟩ = some walletWindows ∧ walletWindows ≠ []) ∧
      (store.changeDays walletSeasons wallet).Pairwise (· ≤ ·) ∧
      tables.windowsOf wallet = walletWindows ∧
      (∀ day, walletWindows.countP (·.validAt day) ≤ 1) ∧
      autumn < winter ∧ tables.isOpen wallet autumn = false := by
  obtain ⟨hregistered, _, _, horder⟩ := windows_disciplined walletSeasons
  have hget : (store.after walletSeasons).windows.get? ⟨.assets, [0]⟩ = some walletWindows := by
    decide +kernel
  have hdays : (store.changeDays walletSeasons wallet).Pairwise (· ≤ ·) := by decide +kernel
  have hwindows : (store.after walletSeasons).windowsOf wallet = walletWindows := by
    decide +kernel
  have hlt : autumn < winter := by decide
  obtain ⟨_, hcount, hbetween⟩ := horder wallet hdays
  refine ⟨⟨hget, (hregistered _ _ hget).1⟩, hdays, hwindows, hwindows ▸ hcount, hlt, ?_⟩
  exact hbetween [] _ _ [] hwindows autumn rfl autumn (Nat.le_refl _) hlt

end AccountTables
end DoubleEntry
