import DoubleEntry.Account.ByName
import DoubleEntry.Proofs.InPlace.Accounts

/-! What a store of accounts is asked and what it answers, whichever way it keeps the accounts. -/
namespace DoubleEntry

inductive AccountRequest where
  | openAt (account : AccountName) (day : Date)
  | closeAt (account : AccountName) (day : Date)
  | resolve (account : AccountName) (day : Date)
  | isOpen (account : AccountName) (day : Date)
  | windowsOf (account : AccountName)
  | accounts (kind : Option AccountKind)
  | unresolve (ref : AccountRef)
  | name (ref : AccountRef)
  | size
  deriving DecidableEq, Repr

/-- The account whose windows a request is meant to change. -/
def AccountRequest.target? : AccountRequest → Option AccountName
  | .openAt account _ | .closeAt account _ => some account
  | _ => none

inductive AccountAnswer where
  | ref (result : Except AccountError AccountRef)
  | isOpen (answer : Bool)
  | windows (windows : List Window)
  | accounts (result : Except RefError (List AccountName))
  | account (result : Except RefError AccountName)
  | name (result : Except RefError String)
  | size (count : Nat)

/-- A way to keep accounts. Opening and closing leave a state also where they are refused. -/
structure AccountStore (σ : Type) where
  empty : σ
  openAt : σ → AccountName → Date → σ × Except AccountError AccountRef
  closeAt : σ → AccountName → Date → σ × Except AccountError AccountRef
  resolve : σ → AccountName → Date → Except AccountError AccountRef
  isOpen : σ → AccountName → Date → Bool
  windowsOf : σ → AccountName → List Window
  accountsOf : σ → List AccountKind → Except RefError (List AccountName)
  unresolve : σ → AccountRef → Except RefError AccountName
  size : σ → Nat

namespace AccountStore

variable {σ σ' : Type}

def answer (store : AccountStore σ) (s : σ) : AccountRequest → σ × AccountAnswer
  | .openAt account day =>
    let (after, result) := store.openAt s account day
    (after, .ref result)
  | .closeAt account day =>
    let (after, result) := store.closeAt s account day
    (after, .ref result)
  | .resolve account day => (s, .ref (store.resolve s account day))
  | .isOpen account day => (s, .isOpen (store.isOpen s account day))
  | .windowsOf account => (s, .windows (store.windowsOf s account))
  | .accounts kind => (s, .accounts (store.accountsOf s (kind.elim AccountKind.all ([·]))))
  | .unresolve ref => (s, .account (store.unresolve s ref))
  | .name ref => (s, .name (AccountName.text <$> store.unresolve s ref))
  | .size => (s, .size (store.size s))

/-- The state after the requests, and the answers. -/
def run (store : AccountStore σ) : σ → List AccountRequest → σ × List AccountAnswer
  | s, [] => (s, [])
  | s, request :: rest =>
    let (after, answer) := store.answer s request
    let (last, answers) := store.run after rest
    (last, answer :: answers)

def after (store : AccountStore σ) (requests : List AccountRequest) : σ :=
  (store.run store.empty requests).1

def answers (store : AccountStore σ) (requests : List AccountRequest) : List AccountAnswer :=
  (store.run store.empty requests).2

/-- Related states give the same answers and lead to related states. -/
structure Simulates (store : AccountStore σ) (store' : AccountStore σ') (R : σ → σ' → Prop) :
    Prop where
  empty : R store.empty store'.empty
  openAt {s s'} (h : R s s') (account day) :
    R (store.openAt s account day).1 (store'.openAt s' account day).1 ∧
      (store.openAt s account day).2 = (store'.openAt s' account day).2
  closeAt {s s'} (h : R s s') (account day) :
    R (store.closeAt s account day).1 (store'.closeAt s' account day).1 ∧
      (store.closeAt s account day).2 = (store'.closeAt s' account day).2
  resolve {s s'} (h : R s s') (account day) :
    store.resolve s account day = store'.resolve s' account day
  isOpen {s s'} (h : R s s') (account day) :
    store.isOpen s account day = store'.isOpen s' account day
  windowsOf {s s'} (h : R s s') (account) : store.windowsOf s account = store'.windowsOf s' account
  accountsOf {s s'} (h : R s s') (kinds) : store.accountsOf s kinds = store'.accountsOf s' kinds
  unresolve {s s'} (h : R s s') (ref) : store.unresolve s ref = store'.unresolve s' ref
  size {s s'} (h : R s s') : store.size s = store'.size s'

namespace Simulates

variable {store : AccountStore σ} {store' : AccountStore σ'} {R : σ → σ' → Prop} {s : σ} {s' : σ'}

theorem answer (sim : Simulates store store' R) (h : R s s') (request : AccountRequest) :
    R (store.answer s request).1 (store'.answer s' request).1 ∧
      (store.answer s request).2 = (store'.answer s' request).2 := by
  cases request with
  | openAt account day =>
    obtain ⟨hstate, hresult⟩ := sim.openAt h account day
    exact ⟨hstate, congrArg _ hresult⟩
  | closeAt account day =>
    obtain ⟨hstate, hresult⟩ := sim.closeAt h account day
    exact ⟨hstate, congrArg _ hresult⟩
  | resolve account day => exact ⟨h, congrArg _ (sim.resolve h account day)⟩
  | isOpen account day => exact ⟨h, congrArg _ (sim.isOpen h account day)⟩
  | windowsOf account => exact ⟨h, congrArg _ (sim.windowsOf h account)⟩
  | accounts kind => exact ⟨h, congrArg _ (sim.accountsOf h _)⟩
  | unresolve ref => exact ⟨h, congrArg _ (sim.unresolve h ref)⟩
  | name ref =>
    refine ⟨h, ?_⟩
    simp only [AccountStore.answer, sim.unresolve h ref]
  | size => exact ⟨h, congrArg _ (sim.size h)⟩

theorem run (sim : Simulates store store' R) (h : R s s') (requests : List AccountRequest) :
    R (store.run s requests).1 (store'.run s' requests).1 ∧
      (store.run s requests).2 = (store'.run s' requests).2 := by
  induction requests generalizing s s' with
  | nil => exact ⟨h, rfl⟩
  | cons request rest ih =>
    obtain ⟨hafter, hanswer⟩ := sim.answer h request
    obtain ⟨hlast, hanswers⟩ := ih hafter
    refine ⟨hlast, ?_⟩
    simp only [AccountStore.run, hanswer, hanswers]

theorem after (sim : Simulates store store' R) (requests : List AccountRequest) :
    R (store.after requests) (store'.after requests) := (sim.run sim.empty requests).1

theorem answers (sim : Simulates store store' R) (requests : List AccountRequest) :
    store.answers requests = store'.answers requests := (sim.run sim.empty requests).2

end Simulates
end AccountStore

/-! ## Ways to keep accounts -/

/-- Tables that are changed in place. -/
def AccountTables.store : AccountStore AccountTables where
  empty := .empty
  openAt t account day := outcome ((openAt account day).run t)
  closeAt t account day := outcome ((closeAt account day).run t)
  resolve := resolve
  isOpen := isOpen
  windowsOf := windowsOf
  accountsOf := accountsOf
  unresolve := unresolve
  size := size

def AccountRegistry.store : AccountStore AccountRegistry where
  empty := .empty
  openAt r account day :=
    let (after, ref) := r.openAt account day
    (after, .ok ref)
  closeAt r account day :=
    match r.closeAt account day with
    | .ok (after, ref) => (after, .ok ref)
    | .error error => (r, .error error)
  resolve := resolve
  isOpen := isOpen
  windowsOf := windowsOf
  accountsOf r kinds := .ok (r.accountsOf kinds)
  unresolve := unresolve
  size := size

namespace NamedAccounts

/-- The reference that stands for an account: its segments are counted as they first came. -/
def refOf (n : NamedAccounts) (account : AccountName) : AccountRef :=
  ⟨account.kind, account.segments.map fun segment => n.segments.idxOf segment⟩

def segment? (n : NamedAccounts) (index : Int) : Option String :=
  if 0 ≤ index then n.segments[index.toNat]? else none

def unresolve (n : NamedAccounts) (ref : AccountRef) : Except RefError AccountName := do
  let segments ← ref.segments.mapM
    (orMissing n.segment? fun index => .account (.undefinedIndex index))
  (AccountName.ofParts ref.kind segments).mapError .name

def accountsOf (n : NamedAccounts) (kinds : List AccountKind) : List AccountName :=
  kinds.flatMap fun kind => n.windows.keys.filter (·.kind = kind)

def resolve (n : NamedAccounts) (account : AccountName) (day : Date) :
    Except AccountError AccountRef :=
  match n.refusal? account day with
  | some error => .error error
  | none => .ok (n.refOf account)

/-- Accounts by their names; only what is asked and answered is translated into references. -/
def store : AccountStore NamedAccounts where
  empty := .empty
  openAt n account day :=
    let after := n.openAt account day
    (after, .ok (after.refOf account))
  closeAt n account day :=
    match n.closeAt account day with
    | .ok after => (after, .ok (after.refOf account))
    | .error error => (n, .error error)
  resolve := resolve
  isOpen := isOpen
  windowsOf := windowsOf
  accountsOf n kinds := .ok (n.accountsOf kinds)
  unresolve := unresolve
  size := size

end NamedAccounts
end DoubleEntry
