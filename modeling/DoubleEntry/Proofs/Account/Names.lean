import DoubleEntry.Account.Registry
import DoubleEntry.Proofs.Collection.NameTable
import DoubleEntry.Proofs.Collection.Traversal

/-! References and the names behind them: each determines the other, and goes on doing so while
accounts are opened. -/
namespace DoubleEntry

theorem AccountName.parts_of_ofParts {kind : AccountKind} {segments : List String}
    {account : AccountName} (h : ofParts kind segments = .ok account) :
    account.kind = kind ∧ account.segments = segments := by
  unfold ofParts at h
  split at h
  · contradiction
  split at h
  · contradiction
  · cases h
    exact ⟨rfl, rfl⟩

namespace AccountRegistry

variable {r r' : AccountRegistry} {account account' : AccountName} {ref ref' : AccountRef}
  {day : Date}

theorem unresolve_eq (r : AccountRegistry) (ref : AccountRef) :
    r.unresolve ref =
      (ref.segments.mapM
        (orMissing r.segments.name? fun index => .account (.undefinedIndex index)) >>=
          fun segments => (AccountName.ofParts ref.kind segments).mapError .name) := by
  unfold unresolve
  congr 2
  funext index
  unfold orMissing
  cases r.segments.name? index <;> rfl

theorem ref?_eq_some_iff :
    r.ref? account = some ref ↔
      account.kind = ref.kind ∧
        List.Forall₂ (fun segment index => r.segments.index? segment = some index)
          account.segments ref.segments := by
  unfold ref?
  rw [Option.map_eq_some_iff]
  constructor
  · rintro ⟨indices, hindices, rfl⟩
    exact ⟨rfl, mapM_eq_some_iff.1 hindices⟩
  · rintro ⟨hkind, hindices⟩
    exact ⟨ref.segments, mapM_eq_some_iff.2 hindices, by rw [hkind]⟩

theorem unresolve_of_ref? (h : r.ref? account = some ref) : r.unresolve ref = .ok account := by
  obtain ⟨hkind, hindices⟩ := ref?_eq_some_iff.1 h
  have hnames : ref.segments.mapM r.segments.name? = some account.segments :=
    mapM_eq_some_iff.2 (hindices.imp (fun _ _ => NameTable.name?_of_index?)).flip
  rw [unresolve_eq, mapM_orMissing_eq_ok_iff.2 hnames, ← hkind]
  change (AccountName.ofParts account.kind account.segments).mapError RefError.name = .ok account
  rw [AccountName.ofParts_parts]
  rfl

theorem ref?_of_unresolve (h : r.unresolve ref = .ok account) : r.ref? account = some ref := by
  rw [unresolve_eq] at h
  obtain ⟨segments, hsegments, h⟩ := bind_eq_ok_iff.1 h
  have hnames := mapM_eq_some_iff.1 (mapM_orMissing_eq_ok_iff.1 hsegments)
  have hparts := mapError_eq_ok_iff.1 h
  obtain ⟨hkind, rfl⟩ := AccountName.parts_of_ofParts hparts
  exact ref?_eq_some_iff.2 ⟨hkind, (hnames.imp fun _ _ => NameTable.index?_of_name?).flip⟩

theorem account_inj (h : r.ref? account = some ref) (h' : r.ref? account' = some ref) :
    account = account' := by
  have hunresolve := unresolve_of_ref? h
  rw [unresolve_of_ref? h'] at hunresolve
  exact (Except.ok.inj hunresolve).symm

theorem resolve_eq_ok (h : r.resolve account day = .ok ref) :
    r.ref? account = some ref ∧ ∃ windows, r.windows.get? ref = some windows := by
  unfold resolve at h
  split at h
  · contradiction
  split at h
  · contradiction
  rename_i found href
  split at h
  · contradiction
  rename_i windows hwindows
  split at h
  · cases h
    exact ⟨href, windows, hwindows⟩
  · contradiction

/-- What a reference stands for is what it was found under. -/
theorem resolve_unresolve (h : r.unresolve ref = .ok account)
    (h' : r.resolve account day = .ok ref') : ref' = ref := by
  have href := ref?_of_unresolve h
  rw [(resolve_eq_ok h').1] at href
  exact Option.some.inj href

theorem ref?_of_grown (h : r.segments.names <+: r'.segments.names)
    (href : r.ref? account = some ref) : r'.ref? account = some ref := by
  obtain ⟨hkind, hindices⟩ := ref?_eq_some_iff.1 href
  exact ref?_eq_some_iff.2 ⟨hkind, hindices.imp fun _ _ => NameTable.index?_of_grown h⟩

theorem ref?_openAt (r : AccountRegistry) (account : AccountName) (day : Date) :
    (r.openAt account day).1.ref? account = some (r.openAt account day).2 := by
  change ((account.segments.mapM (r.segments.internAll account.segments).1.index?).map _) = _
  rw [NameTable.mapM_index?_internAll]
  rfl

theorem prefix_openAt (r : AccountRegistry) (account : AccountName) (day : Date) :
    r.segments.names <+: (r.openAt account day).1.segments.names :=
  r.segments.prefix_internAll account.segments

theorem closeAt_eq_ok {after : AccountRegistry}
    (h : r.closeAt account day = .ok (after, ref)) :
    ∃ windows, after = { r with windows := r.windows.insert ref windows } := by
  unfold closeAt at h
  repeat' split at h
  all_goals first | contradiction | (cases h; exact ⟨_, rfl⟩)

end AccountRegistry
end DoubleEntry
