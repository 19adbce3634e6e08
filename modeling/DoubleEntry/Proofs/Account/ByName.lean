import DoubleEntry.Proofs.Account.Store

/-! A registry amounts to the accounts kept by their names: it gives the same answers to the same
requests. -/
namespace DoubleEntry

theorem NameTable.names_internAll (t : NameTable) (names : List String) :
    (t.internAll names).1.names = NamedAccounts.addSegments t.names names := by
  induction names generalizing t with
  | nil => rfl
  | cons name names ih =>
    rw [internAll, ih, names_intern]
    rfl

theorem NameTable.idxOf_of_index? {t : NameTable} {name : String} {index : Int}
    (h : t.index? name = some index) : (t.names.idxOf name : Int) = index := by
  obtain ⟨place, hplace, rfl⟩ := Option.map_eq_some_iff.1 h
  rw [List.idxOf_eq_getD_idxOf?, hplace]
  rfl

/-- The same segments, and under corresponding accounts the same windows, in the same order. -/
structure AccountRegistry.ByName (r : AccountRegistry) (n : NamedAccounts) : Prop where
  segments : r.segments.names = n.segments
  windows : List.Forall₂ (KeyedList.Corresponds (fun ref account => r.ref? account = some ref)
    fun windows named => windows.toList = named) r.windows.entries n.windows.entries

namespace AccountRegistry.ByName

variable {r : AccountRegistry} {n : NamedAccounts} {account : AccountName} {ref : AccountRef}
  {day : Date}

theorem keys (h : r.ByName n) :
    List.Forall₂ (fun ref account => r.ref? account = some ref) r.windows.keys n.windows.keys := by
  unfold KeyedList.keys
  rw [List.forall₂_map_left_iff, List.forall₂_map_right_iff]
  exact h.windows.imp fun _ _ hentry => hentry.1

theorem refOf_eq (h : r.ByName n) (href : r.ref? account = some ref) : n.refOf account = ref := by
  obtain ⟨hkind, hindices⟩ := ref?_eq_some_iff.1 href
  have hplaces : account.segments.map (fun segment => (n.segments.idxOf segment : Int)) =
      ref.segments := by
    rw [← List.forall₂_eq_eq_eq, List.forall₂_map_left_iff, ← h.segments]
    exact hindices.imp fun _ _ => NameTable.idxOf_of_index?
  rw [NamedAccounts.refOf, hplaces, hkind]

/-- Under one registry a reference is the reference of one account only. -/
theorem key_iff (href : r.ref? account = some ref) (ref' : AccountRef) (account' : AccountName)
    (href' : r.ref? account' = some ref') : ref' = ref ↔ account' = account := by
  constructor
  · rintro rfl
    exact account_inj href' href
  · rintro rfl
    exact Option.some.inj (href'.symm.trans href)

theorem get?_eq (h : r.ByName n) (href : r.ref? account = some ref) :
    n.windows.get? account = (r.windows.get? ref).map Windows.toList := by
  have hrel := KeyedList.rel_get? h.windows (key_iff href)
  generalize r.windows.get? ref = windows at hrel ⊢
  generalize n.windows.get? account = named at hrel ⊢
  cases hrel with
  | none => rfl
  | some hvalue => exact congrArg some hvalue.symm

theorem get?_eq_none (h : r.ByName n) (href : r.ref? account = none) :
    n.windows.get? account = none := by
  rw [KeyedList.get?_eq_none_iff]
  intro hmem
  obtain ⟨ref, _, hfound⟩ := exists_mem_of_forall₂ h.keys hmem
  rw [href] at hfound
  contradiction

theorem windowsOf_eq (h : r.ByName n) (account : AccountName) :
    r.windowsOf account = n.windowsOf account := by
  unfold windowsOf NamedAccounts.windowsOf
  cases href : r.ref? account with
  | none => rw [h.get?_eq_none href]; rfl
  | some ref =>
    rw [h.get?_eq href, Option.bind_some]
    cases r.windows.get? ref <;> rfl

theorem isOpen_eq (h : r.ByName n) (account : AccountName) (day : Date) :
    r.isOpen account day = n.isOpen account day := by
  rw [isOpen, NamedAccounts.isOpen, h.windowsOf_eq]

theorem resolve_eq (h : r.ByName n) (account : AccountName) (day : Date) :
    r.resolve account day = n.resolve account day := by
  have hknown : (fun segment => (r.segments.index? segment).isNone) =
      fun segment => decide (segment ∉ n.segments) := by
    funext segment
    rw [← h.segments, Bool.eq_iff_iff, Option.isNone_iff_eq_none, NameTable.index?_eq_none_iff,
      decide_eq_true_eq]
  unfold resolve NamedAccounts.resolve NamedAccounts.refusal?
  rw [hknown, ← h.isOpen_eq]
  cases hsegments : account.segments.find? fun segment => decide (segment ∉ n.segments) with
  | some segment => rfl
  | none =>
    obtain ⟨indices, hindices⟩ := exists_mapM_eq_some (hknown ▸ hsegments)
    -- every segment is known, so there is a reference, whether or not it has windows
    have href : r.ref? account = some ⟨account.kind, indices⟩ := by rw [ref?, hindices]; rfl
    have hget := h.get?_eq href
    cases hwindows : r.windows.get? ⟨account.kind, indices⟩ with
    | none =>
      have habsent : account ∉ n.windows.keys := by
        rw [← KeyedList.get?_eq_none_iff, hget, hwindows]
        rfl
      simp only [href, hwindows, if_pos habsent]
    | some windows =>
      have hpresent : ¬ account ∉ n.windows.keys := by
        rw [← KeyedList.get?_eq_none_iff, hget, hwindows]
        exact Option.some_ne_none _
      have hopen : r.isOpen account day = windows.validAt day := by
        rw [isOpen, windowsOf, href, Option.bind_some, hwindows]
        rfl
      simp only [href, hwindows, if_neg hpresent, hopen, h.refOf_eq href]
      cases windows.validAt day <;> rfl

/-! ## All accounts -/

theorem refsOf (h : r.ByName n) (kinds : List AccountKind) :
    List.Forall₂ (fun ref account => r.ref? account = some ref) (kinds.flatMap r.refsOf)
      (n.accountsOf kinds) := by
  refine List.rel_flatMap (R := Eq) (List.forall₂_same.2 fun _ _ => rfl) ?_
  rintro kind _ rfl
  refine List.rel_filter (fun ref account href => ?_) h.keys
  change decide (ref.kind = kind) = true ↔ decide (account.kind = kind) = true
  rw [(ref?_eq_some_iff.1 href).1]

theorem mapM_unresolve (h : r.ByName n) (kinds : List AccountKind) :
    (kinds.flatMap r.refsOf).mapM r.unresolve = .ok (n.accountsOf kinds) :=
  mapM_eq_ok_iff.2 ((h.refsOf kinds).imp fun _ _ => unresolve_of_ref?)

theorem accountsOf_eq (h : r.ByName n) (kinds : List AccountKind) :
    r.accountsOf kinds = n.accountsOf kinds := by
  have hrefs := h.refsOf kinds
  unfold accountsOf
  generalize kinds.flatMap r.refsOf = refs, n.accountsOf kinds = accounts at hrefs ⊢
  induction hrefs with
  | nil => rfl
  | cons href _ ih =>
    rw [List.filterMap_cons, unresolve_of_ref? href]
    exact congrArg _ ih

theorem accountsOf_tables (h : r.ByName n) (kinds : List AccountKind) :
    r.tables.accountsOf kinds = .ok (n.accountsOf kinds) := by
  have hunresolve : r.tables.unresolve = r.unresolve := funext r.unresolve_tables
  rw [AccountTables.accountsOf, r.keys_windows_tables, hunresolve]
  exact h.mapM_unresolve kinds

/-- An account of the registry has a name, under which it is listed. -/
theorem exists_account (h : r.ByName n) (hkey : ref ∈ r.windows.keys) :
    ∃ account ∈ n.accountsOf [ref.kind], r.ref? account = some ref := by
  obtain ⟨account, hmem, href⟩ := exists_mem_of_forall₂ h.keys.flip hkey
  refine ⟨account, ?_, href⟩
  simp [NamedAccounts.accountsOf, hmem, (ref?_eq_some_iff.1 href).1]

/-! ## Changes -/

theorem windows_of_grown {r' : AccountRegistry} (h : r.ByName n)
    (hgrown : r.segments.names <+: r'.segments.names) :
    List.Forall₂ (KeyedList.Corresponds (fun ref account => r'.ref? account = some ref)
      fun windows named => windows.toList = named) r.windows.entries n.windows.entries :=
  h.windows.imp fun _ _ hentry => ⟨ref?_of_grown hgrown hentry.1, hentry.2⟩

theorem toList_reopen (windows : Windows) (day : Date) :
    (windows.reopen day).toList = NamedAccounts.reopen windows.toList day := by
  unfold Windows.reopen NamedAccounts.reopen
  by_cases hclosed : windows.latest.isClosed <;> simp [Windows.toList, hclosed]

theorem openAt (h : r.ByName n) (account : AccountName) (day : Date) :
    (r.openAt account day).1.ByName (n.openAt account day) := by
  have href := r.ref?_openAt account day
  refine ⟨?_, KeyedList.rel_alter (h.windows_of_grown (r.prefix_openAt account day))
    (key_iff href) href ?_⟩
  · rw [NamedAccounts.openAt, ← h.segments]
    exact r.segments.names_internAll account.segments
  · intro windows named hvalue
    cases hvalue with
    | none => rfl
    | some hvalue =>
      rw [← hvalue]
      exact toList_reopen _ day

theorem closeAt (h : r.ByName n) (account : AccountName) (day : Date) :
    match r.closeAt account day with
    | .error error => n.closeAt account day = .error error
    | .ok (after, ref) =>
      ∃ after', n.closeAt account day = .ok after' ∧ after.ByName after' ∧
        after.ref? account = some ref := by
  have hwindows := h.windowsOf_eq account
  unfold AccountRegistry.closeAt NamedAccounts.closeAt
  rw [← hwindows, windowsOf]
  cases href : r.ref? account with
  | none => rfl
  | some ref =>
    rw [Option.bind_some]
    cases hget : r.windows.get? ref with
    | none => simp only [hget]; rfl
    | some windows =>
      obtain ⟨earlier, ⟨opened, closed, hle⟩, hearlier⟩ := windows
      simp only [hget, Windows.toList, List.getLast?_concat]
      cases closed with
      | some closed => rfl
      | none =>
        cases hdates : Window.ofDates opened (some day) with
        | error _ => rfl
        | ok window =>
          refine ⟨_, rfl, ⟨h.segments, ?_⟩, href⟩
          refine KeyedList.rel_alter h.windows (key_iff href) href fun _ _ _ => ?_
          simp [Windows.toList]

end AccountRegistry.ByName

/-! ## Runs -/

theorem AccountRegistry.simulates_named :
    AccountStore.Simulates AccountRegistry.store NamedAccounts.store ByName where
  empty := ⟨rfl, .nil⟩
  openAt {r n} h account day := by
    have hafter := h.openAt account day
    exact ⟨hafter, congrArg _ (hafter.refOf_eq (r.ref?_openAt account day)).symm⟩
  closeAt {r n} h account day := by
    have hafter := h.closeAt account day
    simp only [store, NamedAccounts.store]
    cases hclose : r.closeAt account day with
    | error error =>
      rw [hclose] at hafter
      simp only [hafter]
      exact ⟨h, trivial⟩
    | ok result =>
      rw [hclose] at hafter
      obtain ⟨after', hclose', hafter, href⟩ := hafter
      simp only [hclose']
      exact ⟨hafter, congrArg _ (hafter.refOf_eq href).symm⟩
  resolve h := h.resolve_eq
  isOpen h := h.isOpen_eq
  windowsOf h := h.windowsOf_eq
  accountsOf h kinds := congrArg _ (h.accountsOf_eq kinds)
  unresolve {r n} h ref := by
    have hname : r.segments.name? = n.segment? := by
      funext index
      rw [NameTable.name?, NamedAccounts.segment?, h.segments]
    change r.unresolve ref = n.unresolve ref
    rw [unresolve_eq, hname]
    rfl
  size h := h.windows.length_eq

theorem AccountTables.simulates_registry :
    AccountStore.Simulates AccountTables.store AccountRegistry.store
      fun t r => t = r.tables ∧ ∃ n, r.ByName n where
  empty := ⟨rfl, .empty, AccountRegistry.simulates_named.empty⟩
  openAt := by
    rintro _ r ⟨rfl, n, h⟩ account day
    have hafter := h.openAt account day
    simp only [store, AccountRegistry.store, AccountRegistry.run_openAt]
    exact ⟨⟨rfl, _, hafter⟩, rfl⟩
  closeAt := by
    rintro _ r ⟨rfl, n, h⟩ account day
    have hafter := h.closeAt account day
    simp only [store, AccountRegistry.store, AccountRegistry.run_closeAt]
    cases hclose : r.closeAt account day with
    | error error => exact ⟨⟨rfl, n, h⟩, rfl⟩
    | ok result =>
      rw [hclose] at hafter
      obtain ⟨after', _, hafter, _⟩ := hafter
      exact ⟨⟨rfl, after', hafter⟩, rfl⟩
  resolve := by
    rintro _ r ⟨rfl, _⟩
    exact r.resolve_tables
  isOpen := by
    rintro _ r ⟨rfl, _⟩
    exact r.isOpen_tables
  windowsOf := by
    rintro _ r ⟨rfl, _⟩
    exact r.windowsOf_tables
  accountsOf := by
    rintro _ r ⟨rfl, n, h⟩ kinds
    change r.tables.accountsOf kinds = .ok (r.accountsOf kinds)
    rw [h.accountsOf_eq]
    exact h.accountsOf_tables kinds
  unresolve := by
    rintro _ r ⟨rfl, _⟩
    exact r.unresolve_tables
  size := by
    rintro _ r ⟨rfl, _⟩
    exact r.size_tables

end DoubleEntry
