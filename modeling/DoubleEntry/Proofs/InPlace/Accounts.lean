import DoubleEntry.Proofs.Account.Names
import DoubleEntry.Proofs.InPlace.NameIndex

/-! Accounts as they are kept in memory: an index of segments and lists of windows, changed one
after the other, also where the change fails in the end. -/
namespace DoubleEntry

structure AccountTables where
  segments : NameIndex
  windows : KeyedList AccountRef (List Window)
  deriving Repr

namespace AccountTables

def empty : AccountTables := ⟨.empty, .empty⟩

/-! ## Lookups -/

def size (t : AccountTables) : Nat := t.windows.size

def ref? (t : AccountTables) (account : AccountName) : Option AccountRef :=
  (account.segments.mapM t.segments.place?).map (⟨account.kind, ·⟩)

/-- The indices of the segments, up to the first that is unknown. -/
def lookup (t : AccountTables) (account : AccountName) (day : Date) :
    Except AccountError (List Int) :=
  account.segments.mapM (orMissing t.segments.place? (.unknownSegment account day))

def windowsOf (t : AccountTables) (account : AccountName) : List Window :=
  ((t.ref? account).bind t.windows.get?).getD []

def isOpen (t : AccountTables) (account : AccountName) (day : Date) : Bool :=
  (t.windowsOf account).any (·.validAt day)

def resolve (t : AccountTables) (account : AccountName) (day : Date) :
    Except AccountError AccountRef := do
  let ref : AccountRef := ⟨account.kind, ← t.lookup account day⟩
  let windows := (t.windows.get? ref).getD []
  if windows = [] then .error (.neverOpened account day)
  else if windows.any (·.validAt day) then .ok ref
  else .error (.outsideWindows account day)

def unresolve (t : AccountTables) (ref : AccountRef) : Except RefError AccountName := do
  let segments ← ref.segments.mapM
    (orMissing t.segments.name? fun index => .account (.undefinedIndex index))
  (AccountName.ofParts ref.kind segments).mapError .name

/-- Every account of the given kinds; none of them may be without a name. -/
def accountsOf (t : AccountTables) (kinds : List AccountKind) :
    Except RefError (List AccountName) :=
  (kinds.flatMap fun kind => t.windows.keys.filter (·.kind = kind)).mapM t.unresolve

/-! ## Changes -/

def intern {ε : Type} (segments : List String) : EStateM ε AccountTables (List Int) :=
  onPart (·.segments) (fun t segments => { t with segments }) id (segments.mapM NameIndex.intern)

/-- A new window takes the place of a latest one that is open. -/
def renew (windows : List Window) (day : Date) : List Window :=
  match windows.getLast? with
  | none => [.openFrom day]
  | some latest =>
    if latest.closed = none then windows.dropLast ++ [.openFrom day]
    else windows ++ [.openFrom day]

/-- A new account has no windows until its list of windows is changed. -/
def openAt {ε : Type} (account : AccountName) (day : Date) :
    EStateM ε AccountTables AccountRef := do
  let ref : AccountRef := ⟨account.kind, ← intern account.segments⟩
  modify fun t => { t with windows := t.windows.alter ref (·.getD []) }
  modify fun t =>
    { t with windows := t.windows.alter ref fun windows => renew (windows.getD []) day }
  return ref

/-- The reference is looked up again, and may be refused, after the window was closed. -/
def closeAt (account : AccountName) (day : Date) :
    EStateM AccountError AccountTables AccountRef := do
  match (← get).ref? account with
  | none => throw (.closeUnopened account day)
  | some ref =>
    let windows := ((← get).windows.get? ref).getD []
    match windows.getLast? with
    | none => throw (.closeUnopened account day)
    | some latest =>
      match latest.closed with
      | some closed => throw (.alreadyClosed account day closed)
      | none =>
        match Window.ofDates latest.opened (some day) with
        | .error _ => throw (.closesBeforeOpening account day latest.opened)
        | .ok window =>
          modify fun t => { t with windows := t.windows.insert ref (windows.dropLast ++ [window]) }
          return ⟨account.kind, ← lookUp (·.lookup account day)⟩

end AccountTables

/-! ## Tables of a registry -/

namespace AccountRegistry

/-- The registry as it is kept in memory. -/
def tables (r : AccountRegistry) : AccountTables :=
  ⟨r.segments.toIndex, r.windows.mapValues Windows.toList⟩

variable (r : AccountRegistry) (account : AccountName) (day : Date)

@[simp] theorem segments_tables : r.tables.segments = r.segments.toIndex := rfl

@[simp] theorem size_tables : r.tables.size = r.size := by
  simp [AccountTables.size, size, tables, KeyedList.size, KeyedList.mapValues]

@[simp] theorem ref?_tables : r.tables.ref? account = r.ref? account := by
  rw [AccountTables.ref?, segments_tables, NameTable.place?_toIndex, ref?]

@[simp] theorem get?_windows_tables (ref : AccountRef) :
    r.tables.windows.get? ref = (r.windows.get? ref).map Windows.toList :=
  KeyedList.get?_mapValues Windows.toList r.windows ref

@[simp] theorem keys_windows_tables : r.tables.windows.keys = r.windows.keys := by
  simp [tables, KeyedList.keys, KeyedList.mapValues]

@[simp] theorem windowsOf_tables : r.tables.windowsOf account = r.windowsOf account := by
  unfold AccountTables.windowsOf windowsOf
  rw [ref?_tables]
  cases r.ref? account with
  | none => rfl
  | some ref =>
    rw [Option.bind_some, Option.bind_some, get?_windows_tables]
    cases r.windows.get? ref <;> rfl

@[simp] theorem isOpen_tables : r.tables.isOpen account day = r.isOpen account day := by
  rw [AccountTables.isOpen, isOpen, windowsOf_tables]

@[simp] theorem unresolve_tables (ref : AccountRef) : r.tables.unresolve ref = r.unresolve ref := by
  rw [AccountTables.unresolve, segments_tables, NameTable.name?_toIndex, unresolve_eq]

end AccountRegistry

namespace AccountTables

variable {t : AccountTables} {account : AccountName} {day : Date}

theorem lookup_of_ref? {ref : AccountRef} (h : t.ref? account = some ref) :
    t.lookup account day = .ok ref.segments := by
  obtain ⟨indices, hindices, rfl⟩ := Option.map_eq_some_iff.1 h
  exact mapM_orMissing_eq_ok_iff.2 hindices

theorem lookup_of_unknown {segment : String}
    (h : account.segments.find? (fun segment => (t.segments.place? segment).isNone) =
      some segment) :
    t.lookup account day = .error (.unknownSegment account day segment) :=
  mapM_orMissing_of_none h

end AccountTables

namespace AccountRegistry

variable (r : AccountRegistry) (account : AccountName) (day : Date)

@[simp] theorem resolve_tables : r.tables.resolve account day = r.resolve account day := by
  unfold AccountTables.resolve resolve
  split
  · rename_i segment h
    rw [AccountTables.lookup_of_unknown (by rwa [segments_tables, NameTable.place?_toIndex])]
    rfl
  · rename_i h
    obtain ⟨indices, hindices⟩ := exists_mapM_eq_some h
    have href : r.ref? account = some ⟨account.kind, indices⟩ := by rw [ref?, hindices]; rfl
    rw [AccountTables.lookup_of_ref? (r.ref?_tables account ▸ href), href]
    cases hwindows : r.windows.get? ⟨account.kind, indices⟩ with
    | none => simp [hwindows]
    | some windows =>
      have hne : windows.toList ≠ [] := by simp [Windows.toList]
      simp [hwindows, hne, Windows.validAt]

/-! ## Changes of the tables of a registry -/

theorem renew_toList (windows : Windows) :
    AccountTables.renew windows.toList day = (windows.reopen day).toList := by
  unfold AccountTables.renew Windows.reopen
  cases h : windows.latest.closed <;> simp [Windows.toList, Window.isClosed, h]

theorem run_openAt {ε : Type} :
    (AccountTables.openAt account day : EStateM ε AccountTables AccountRef).run r.tables =
      .ok (r.openAt account day).2 (r.openAt account day).1.tables := by
  have hwindows (ref : AccountRef) (reopened : Option Windows → Windows)
      (h : ∀ windows, (reopened windows).toList =
        AccountTables.renew ((windows.map Windows.toList).getD []) day) :
      (r.tables.windows.alter ref (·.getD [])).alter ref
          (fun windows => AccountTables.renew (windows.getD []) day) =
        (r.windows.alter ref reopened).mapValues Windows.toList := by
    rw [KeyedList.alter_alter]
    exact (KeyedList.mapValues_alter Windows.toList h r.windows).symm
  unfold AccountTables.openAt AccountTables.intern
  simp only [EStateM.run_bind, run_onPart, segments_tables, NameTable.run_mapM_intern,
    EStateM.run_modify, EStateM.run_pure]
  rw [hwindows]
  · rfl
  · rintro (_ | windows)
    · rfl
    · exact (renew_toList day windows).symm

/-- Closing finds the reference again: the segments of a known account stay known. -/
theorem run_closeAt :
    (AccountTables.closeAt account day).run r.tables =
      match r.closeAt account day with
      | .ok (after, ref) => .ok ref after.tables
      | .error error => .error error r.tables := by
  unfold AccountTables.closeAt closeAt
  cases href : r.ref? account with
  | none => simp [href]
  | some ref =>
    cases hwindows : r.windows.get? ref with
    | none => simp [href, hwindows]
    | some windows =>
      have hlast : windows.toList.getLast? = some windows.latest := by simp [Windows.toList]
      cases hclosed : windows.latest.closed with
      | some closed => simp [href, hwindows, hlast, hclosed]
      | none =>
        cases hdates : Window.ofDates windows.latest.opened (some day) with
        | error _ => simp [href, hwindows, hlast, hclosed, hdates]
        | ok window =>
          let after : AccountRegistry :=
            { r with windows := r.windows.insert ref { windows with latest := window } }
          have hinsert : r.tables.windows.insert ref (windows.toList.dropLast ++ [window]) =
              after.tables.windows := by
            refine (KeyedList.mapValues_alter Windows.toList (fun _ => ?_) r.windows).symm
            simp [Windows.toList]
          have hsegments : r.tables.segments = after.tables.segments := rfl
          have hlookup : after.tables.lookup account day = .ok ref.segments :=
            AccountTables.lookup_of_ref? ((after.ref?_tables account).trans href)
          have hkind : (⟨account.kind, ref.segments⟩ : AccountRef) = ref := by
            obtain ⟨indices, _, rfl⟩ := Option.map_eq_some_iff.1 href
            rfl
          simp [-segments_tables, href, hwindows, hlast, hclosed, hdates, hinsert, hsegments,
            hlookup, hkind, after]

end AccountRegistry
end DoubleEntry
