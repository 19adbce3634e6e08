import DoubleEntry.Proofs.Token.Moved
import DoubleEntry.Statement.OfToken

/-! A token means the same wherever it stands; only the error of an impossible date tells the
place. -/
namespace DoubleEntry

variable {lines : Nat}

@[simp] theorem Token.rule_movedUp (t : Token) : (t.movedUp lines).rule = t.rule := by
  cases t
  rfl

@[simp] theorem Token.text_movedUp (t : Token) : (t.movedUp lines).text = t.text := by
  cases t
  rfl

@[simp] theorem Token.children_movedUp (t : Token) :
    (t.movedUp lines).children = t.children.map (·.movedUp lines) := by
  cases t
  exact allMovedUp_eq_map lines _

@[simp] theorem Token.value_movedUp (t : Token) : (t.movedUp lines).value = t.value := by
  unfold value
  rw [rule_movedUp, text_movedUp]

theorem Date.ofToken_movedUp (t : Token) (day : Date) :
    Date.ofToken (t.movedUp lines) = .ok day ↔ Date.ofToken t = .ok day := by
  unfold ofToken
  rw [Token.text_movedUp]
  cases Date.ofText? t.text <;> simp

@[simp] theorem AccountName.ofToken_movedUp (t : Token) :
    AccountName.ofToken (t.movedUp lines) = AccountName.ofToken t := by
  unfold ofToken
  rw [Token.text_movedUp]

@[simp] theorem Price.ofToken_movedUp (t : Token) :
    Price.ofToken (t.movedUp lines) = Price.ofToken t := by
  obtain ⟨rule, text, position, children⟩ := t
  unfold ofToken
  simp only [Token.rule_movedUp, Token.children_movedUp]
  match children with
  | [] => cases rule <;> rfl
  | [first] => cases rule <;> rfl
  | [first, second] => cases rule <;> simp
  | _ :: _ :: _ :: _ => cases rule <;> rfl

theorem mapM_movedUp {ε β : Type} {f : Token → Except ε β}
    (h : ∀ t, f (t.movedUp lines) = f t) (ts : List Token) :
    (ts.map (·.movedUp lines)).mapM f = ts.mapM f := by
  induction ts with
  | nil => rfl
  | cons t ts ih => rw [List.map_cons, List.mapM_cons, List.mapM_cons, h, ih]

@[simp] theorem Amount.ofToken_movedUp (t : Token) :
    Amount.ofToken (t.movedUp lines) = Amount.ofToken t := by
  unfold ofToken
  rw [Price.ofToken_movedUp, Token.rule_movedUp, Token.children_movedUp]
  match t.children with
  | [] => cases t.rule <;> rfl
  | first :: others =>
    have hothers : (others.map (·.movedUp lines)).mapM Price.ofToken =
        others.mapM Price.ofToken := mapM_movedUp Price.ofToken_movedUp others
    rw [List.map_cons]
    cases t.rule <;> simp [hothers]

@[simp] theorem Header.ofToken_movedUp (t : Token) :
    Header.ofToken (t.movedUp lines) = Header.ofToken t := by
  unfold ofToken
  rw [Token.children_movedUp]
  match t.children with
  | [] => rfl
  | flag :: strings =>
    simp only [List.map_cons, Token.text_movedUp]
    match strings with
    | [] => rfl
    | [title] => cases TransactionState.ofFlag? flag.text <;> simp
    | [payee, title] => cases TransactionState.ofFlag? flag.text <;> simp
    | _ :: _ :: _ :: _ => cases TransactionState.ofFlag? flag.text <;> rfl

@[simp] theorem Posting.ofToken_movedUp (t : Token) :
    Posting.ofToken (t.movedUp lines) = Posting.ofToken t := by
  unfold ofToken
  rw [Token.children_movedUp]
  match t.children with
  | [] => rfl
  | [account] => simp only [List.map_cons, List.map_nil, AccountName.ofToken_movedUp]
  | account :: amount :: _ =>
    simp only [List.map_cons, AccountName.ofToken_movedUp, Amount.ofToken_movedUp]

@[simp] theorem Posting.listOfToken_movedUp (t : Token) :
    Posting.listOfToken (t.movedUp lines) = Posting.listOfToken t := by
  unfold listOfToken
  rw [Token.rule_movedUp, Token.children_movedUp, mapM_movedUp Posting.ofToken_movedUp]

theorem Statement.ofDated_movedUp (t : Token) (s : Statement) :
    Statement.ofDated (t.movedUp lines) = .ok s ↔ Statement.ofDated t = .ok s := by
  unfold ofDated
  rw [Token.rule_movedUp, Token.children_movedUp]
  match t.children with
  | [] => cases t.rule <;> simp
  | [day] => cases t.rule <;> simp [map_eq_ok_iff, Date.ofToken_movedUp]
  | [day, a] => cases t.rule <;> simp [map_eq_ok_iff, bind_eq_ok_iff, Date.ofToken_movedUp]
  | [day, a, b] => cases t.rule <;> simp [map_eq_ok_iff, bind_eq_ok_iff, Date.ofToken_movedUp]
  | day :: a :: b :: c :: rest =>
    cases t.rule <;> simp [map_eq_ok_iff, Date.ofToken_movedUp, Function.comp_def]

theorem Statement.ofToken_movedUp (t : Token) (s : Statement) :
    Statement.ofToken (t.movedUp lines) = .ok s ↔ Statement.ofToken t = .ok s := by
  unfold ofToken
  have hdated : ofDated (t.movedUp lines) = .ok s ↔ ofDated t = .ok s := ofDated_movedUp t s
  rw [Token.rule_movedUp, Token.children_movedUp]
  match t.children with
  | [] => cases t.rule <;> exact hdated
  | [inner] => cases t.rule <;> simp [hdated, ofDated_movedUp]
  | _ :: _ :: _ => cases t.rule <;> exact hdated

theorem Directive.ofToken_movedUp (t : Token) (d : Directive) :
    Directive.ofToken (t.movedUp lines) = .ok d ↔ Directive.ofToken t = .ok d := by
  unfold ofToken
  have hstatement : Directive.statement <$> Statement.ofToken (t.movedUp lines) = .ok d ↔
      Directive.statement <$> Statement.ofToken t = .ok d := by
    simp only [map_eq_ok_iff, Statement.ofToken_movedUp]
  rw [Token.rule_movedUp, Token.children_movedUp]
  match t.children with
  | [] => cases t.rule <;> exact hstatement
  | [path] => cases t.rule <;> simp [hstatement]
  | [key, value] => cases t.rule <;> simp [hstatement]
  | _ :: _ :: _ :: _ => cases t.rule <;> exact hstatement

end DoubleEntry
