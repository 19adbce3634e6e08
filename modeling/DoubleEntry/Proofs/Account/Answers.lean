import DoubleEntry.Proofs.Account.ByName

/-! Runs of requests: every store of accounts answers as the accounts by name do. -/
namespace DoubleEntry

/-! ## What a run has opened -/

/-- What each request adds, a run adds. -/
theorem AccountStore.run_iff {σ : Type} {store : AccountStore σ} {P : σ → Prop}
    {Q : AccountRequest → Prop} (h : ∀ s request, P (store.answer s request).1 ↔ P s ∨ Q request)
    (s : σ) (requests : List AccountRequest) :
    P (store.run s requests).1 ↔ P s ∨ ∃ request ∈ requests, Q request := by
  induction requests generalizing s with
  | nil => simp [run]
  | cons request rest ih =>
    change P (store.run (store.answer s request).1 rest).1 ↔ _
    rw [ih, h, or_assoc]
    simp

namespace NamedAccounts

variable {n after : NamedAccounts} {account account' : AccountName} {day : Date}

theorem mem_addSegments {known segments : List String} {segment : String} :
    segment ∈ addSegments known segments ↔ segment ∈ known ∨ segment ∈ segments := by
  induction segments generalizing known with
  | nil => simp [addSegments]
  | cons first rest ih =>
    change segment ∈ addSegments (if first ∈ known then known else known ++ [first]) rest ↔ _
    rw [ih]
    split
    · rename_i h
      constructor <;> grind
    · grind

/-- Closing changes the windows of an account that has some. -/
theorem closeAt_eq_ok (h : n.closeAt account day = .ok after) :
    account ∈ n.windows.keys ∧
      ∃ window, after = { n with
        windows := n.windows.insert account ((n.windowsOf account).dropLast ++ [window]) } := by
  have hkey : (n.windowsOf account).getLast? ≠ none → account ∈ n.windows.keys := by
    intro hlast
    by_contra habsent
    rw [windowsOf, KeyedList.get?_eq_none_iff.2 habsent] at hlast
    exact hlast rfl
  unfold closeAt at h
  split at h
  · contradiction
  rename_i hlast
  split at h
  · contradiction
  split at h
  · contradiction
  cases h
  exact ⟨hkey (by rw [hlast]; exact Option.some_ne_none _), _, rfl⟩

theorem mem_segments_answer (n : NamedAccounts) (request : AccountRequest) {segment : String} :
    segment ∈ (store.answer n request).1.segments ↔
      segment ∈ n.segments ∨
        ∃ account day, request = .openAt account day ∧ segment ∈ account.segments := by
  cases request with
  | openAt account day =>
    refine mem_addSegments.trans (or_congr_right ?_)
    simp
  | closeAt account day =>
    simp only [AccountStore.answer, store]
    cases hclose : n.closeAt account day with
    | error error => simp
    | ok after =>
      obtain ⟨_, window, rfl⟩ := closeAt_eq_ok hclose
      simp
  | _ => simp [AccountStore.answer]

theorem mem_keys_answer (n : NamedAccounts) (request : AccountRequest) :
    account ∈ (store.answer n request).1.windows.keys ↔
      account ∈ n.windows.keys ∨ ∃ day, request = .openAt account day := by
  cases request with
  | openAt account' day =>
    refine KeyedList.mem_keys_alter.trans (or_congr_right ?_)
    simp [eq_comm]
  | closeAt account' day =>
    simp only [AccountStore.answer, store]
    cases hclose : n.closeAt account' day with
    | error error => simp
    | ok after =>
      obtain ⟨hkey, window, rfl⟩ := closeAt_eq_ok hclose
      simp only [KeyedList.insert, KeyedList.mem_keys_alter, reduceCtorEq, exists_false, or_false]
      grind
  | _ => simp [AccountStore.answer]

/-- Nothing changes the windows of an account but a request that is meant to. -/
theorem windowsOf_answer {request : AccountRequest} (h : request.target? ≠ some account) :
    (store.answer n request).1.windowsOf account = n.windowsOf account := by
  cases request with
  | openAt account' day =>
    have hne : account' ≠ account := fun heq => h (congrArg some heq)
    simp [AccountStore.answer, store, openAt, windowsOf, hne]
  | closeAt account' day =>
    have hne : account' ≠ account := fun heq => h (congrArg some heq)
    simp only [AccountStore.answer, store]
    cases hclose : n.closeAt account' day with
    | error error => rfl
    | ok after =>
      obtain ⟨_, window, rfl⟩ := closeAt_eq_ok hclose
      simp [windowsOf, KeyedList.insert, hne]
  | _ => rfl

theorem mem_segments_after (requests : List AccountRequest) {segment : String} :
    segment ∈ (store.after requests).segments ↔
      ∃ account day, .openAt account day ∈ requests ∧ segment ∈ account.segments := by
  refine (AccountStore.run_iff (P := fun n => segment ∈ n.segments)
    (fun n request => n.mem_segments_answer request) store.empty requests).trans ?_
  constructor
  · rintro (hmem | ⟨_, hrequest, account, day, rfl, hsegment⟩)
    · contradiction
    · exact ⟨account, day, hrequest, hsegment⟩
  · rintro ⟨account, day, hrequest, hsegment⟩
    exact .inr ⟨_, hrequest, account, day, rfl, hsegment⟩

theorem mem_keys_after (requests : List AccountRequest) :
    account ∈ (store.after requests).windows.keys ↔ ∃ day, .openAt account day ∈ requests := by
  refine (AccountStore.run_iff (P := fun n => account ∈ n.windows.keys)
    (fun n request => n.mem_keys_answer request) store.empty requests).trans ?_
  constructor
  · rintro (hmem | ⟨_, hrequest, day, rfl⟩)
    · contradiction
    · exact ⟨day, hrequest⟩
  · rintro ⟨day, hrequest⟩
    exact .inr ⟨_, hrequest, day, rfl⟩

end NamedAccounts

/-! ## The three stores -/

/-- To the same requests, the tables in memory, the registry and the accounts by name give the same
answers. No request changes the windows of an account it is not about, and an account that was found
behind a reference resolves to this reference. -/
theorem AccountStore.answers_byName (requests : List AccountRequest) :
    let tables := AccountTables.store.after requests
    let named := NamedAccounts.store.after requests
    AccountTables.store.answers requests = NamedAccounts.store.answers requests ∧
      AccountRegistry.store.answers requests = NamedAccounts.store.answers requests ∧
      tables = (AccountRegistry.store.after requests).tables ∧
      (∀ segment, segment ∈ named.segments ↔
        ∃ account day, .openAt account day ∈ requests ∧ segment ∈ account.segments) ∧
      (∀ account, account ∈ named.windows.keys ↔ ∃ day, .openAt account day ∈ requests) ∧
      (∀ (request : AccountRequest) (account), request.target? ≠ some account →
        (AccountTables.store.answer tables request).1.windowsOf account =
          tables.windowsOf account) ∧
      ∀ ref account day ref', tables.unresolve ref = .ok account →
        tables.resolve account day = .ok ref' → ref' = ref := by
  have hnamed := AccountRegistry.simulates_named
  have htables := AccountTables.simulates_registry
  obtain ⟨hafter, _⟩ := htables.after requests
  refine ⟨(htables.answers requests).trans (hnamed.answers requests), hnamed.answers requests,
    hafter, fun segment => NamedAccounts.mem_segments_after requests,
    fun account => NamedAccounts.mem_keys_after requests, fun request account htarget => ?_,
    fun ref account day ref' hunresolve hresolve => ?_⟩
  · calc (AccountTables.store.answer (AccountTables.store.after requests) request).1.windowsOf
            account
        = (AccountRegistry.store.answer (AccountRegistry.store.after requests) request).1.windowsOf
            account := htables.windowsOf (htables.answer (htables.after requests) request).1 account
      _ = (NamedAccounts.store.answer (NamedAccounts.store.after requests) request).1.windowsOf
            account := hnamed.windowsOf (hnamed.answer (hnamed.after requests) request).1 account
      _ = (NamedAccounts.store.after requests).windowsOf account :=
          NamedAccounts.windowsOf_answer htarget
      _ = (AccountRegistry.store.after requests).windowsOf account :=
          (hnamed.windowsOf (hnamed.after requests) account).symm
      _ = (AccountTables.store.after requests).windowsOf account :=
          (htables.windowsOf (htables.after requests) account).symm
  · rw [hafter, AccountRegistry.unresolve_tables] at hunresolve
    rw [hafter, AccountRegistry.resolve_tables] at hresolve
    exact AccountRegistry.resolve_unresolve hunresolve hresolve

namespace AccountStore

def wallet : AccountName := ⟨.assets, ["Wallet"], by decide, by decide⟩

def walletBought : AccountName := ⟨.expenses, ["Wallet"], by decide, by decide⟩

def walletDay : Date := ⟨2022, 3, 15, by decide, by decide, by decide⟩

def walletsOpened : List AccountRequest :=
  [.openAt wallet walletDay, .openAt walletBought walletDay]

/-- The same segment under two kinds: closing the one account leaves the other open. -/
theorem answers_byName_wallet :
    let tables := AccountTables.store.after walletsOpened
    (AccountRequest.closeAt wallet walletDay).target? ≠ some walletBought ∧
      (AccountTables.store.answer tables (.closeAt wallet walletDay)).1.windowsOf walletBought =
        tables.windowsOf walletBought ∧
      tables.unresolve ⟨.assets, [0]⟩ = .ok wallet ∧
      ∃ ref, tables.resolve wallet walletDay = .ok ref ∧ ref = ⟨.assets, [0]⟩ := by
  obtain ⟨_, _, _, _, _, hframe, hreference⟩ :=
    answers_byName walletsOpened
  have hne : (AccountRequest.closeAt wallet walletDay).target? ≠ some walletBought := by decide
  have hunresolve := toOption_eq_some_iff.1 (by decide +kernel :
    ((AccountTables.store.after walletsOpened).unresolve ⟨.assets, [0]⟩).toOption = some wallet)
  have hresolve := toOption_eq_some_iff.1 (by decide +kernel :
    ((AccountTables.store.after walletsOpened).resolve wallet walletDay).toOption = some ⟨.assets, [0]⟩)
  exact ⟨hne, hframe _ _ hne, hunresolve, _, hresolve, hreference _ _ _ _ hunresolve hresolve⟩

end AccountStore
end DoubleEntry
