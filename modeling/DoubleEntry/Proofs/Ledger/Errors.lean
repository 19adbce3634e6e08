import DoubleEntry.Ledger.Process
import DoubleEntry.Proofs.Collection.Traversal

/-! What statements fail with: errors that are reported under a name, unless the statement declares
the empty code. -/
namespace DoubleEntry

def StatementError.IsNamed (error : StatementError) : Prop := error.kind?.isSome = true

namespace CurrencyTable

theorem lookup_failsWith (t : CurrencyTable) (code : String) :
    FailsWith (t.lookup code) (· ≠ .emptyCode) := by
  intro error h
  unfold lookup at h
  split at h
  · contradiction
  · cases h
    simp

theorem resolve_failsWith (t : CurrencyTable) (a : Amount String) :
    FailsWith (t.resolve a) (· ≠ .emptyCode) := by
  unfold resolve
  refine FailsWith.bind (failsWith_mapM fun price => ?_) fun prices => ?_
  · exact (t.lookup_failsWith price.currency).bind fun index => failsWith_pure _
  · exact (t.lookup_failsWith a.currency).bind fun index => failsWith_pure _

end CurrencyTable

theorem StatementError.isNamed_currency {error : CurrencyError} (h : error ≠ .emptyCode) :
    (StatementError.currency error).IsNamed := by
  cases error with
  | emptyCode => contradiction
  | undeclared code => rfl

namespace Ledger

theorem resolveAccount_failsWith (l : Ledger) (account : AccountName) (day : Date) :
    FailsWith (l.resolveAccount account day) StatementError.IsNamed :=
  failsWith_mapError fun _ _ => rfl

theorem lookup_failsWith (l : Ledger) (code : String) :
    FailsWith ((l.currencies.lookup code).mapError .currency) StatementError.IsNamed :=
  failsWith_mapError fun error h =>
    StatementError.isNamed_currency (l.currencies.lookup_failsWith code error h)

theorem resolveAmount_failsWith (l : Ledger) (a : Amount String) :
    FailsWith (l.resolveAmount a) StatementError.IsNamed :=
  failsWith_mapError fun error h =>
    StatementError.isNamed_currency (l.currencies.resolve_failsWith a error h)

theorem legOf_failsWith (l : Ledger) (day : Date) (posting : Posting) :
    FailsWith (l.legOf day posting) StatementError.IsNamed := by
  unfold legOf
  refine (l.resolveAccount_failsWith _ _).bind fun account => ?_
  exact (failsWith_optionMapM l.resolveAmount_failsWith).bind fun amount => failsWith_pure _

theorem transactionOf_failsWith (l : Ledger) (day : Date) (header : Header)
    (postings : List Posting) :
    FailsWith (l.transactionOf day header postings) StatementError.IsNamed := by
  unfold transactionOf
  refine (failsWith_mapM (l.legOf_failsWith day)).bind fun legs => ?_
  exact failsWith_mapError fun _ _ => rfl

theorem process_failsWith (l : Ledger) {statement : Statement} (hne : statement ≠ .unit "") :
    FailsWith (l.process statement) StatementError.IsNamed := by
  cases statement with
  | unit code =>
    have hcode : code ≠ "" := by
      rintro rfl
      contradiction
    simp only [process, CurrencyTable.declare, if_neg hcode]
    exact failsWith_pure _
  | custom day args => exact failsWith_pure _
  | openAccount day account => exact failsWith_pure _
  | closeAccount day account =>
    refine FailsWith.bind (failsWith_mapError fun _ _ => ?_) fun _ => failsWith_pure _
    rfl
  | pad day target source =>
    refine (l.resolveAccount_failsWith _ _).bind fun target => ?_
    exact (l.resolveAccount_failsWith _ _).bind fun source => failsWith_pure _
  | balance day account amount =>
    refine (l.resolveAccount_failsWith _ _).bind fun account => ?_
    exact (l.resolveAmount_failsWith _).bind fun amount => failsWith_pure _
  | price day currency amount =>
    refine (l.lookup_failsWith _).bind fun currency => ?_
    exact (l.resolveAmount_failsWith _).bind fun quote => failsWith_pure _
  | transaction day header postings =>
    exact (l.transactionOf_failsWith _ _ _).bind fun transaction => failsWith_pure _

end Ledger
end DoubleEntry
