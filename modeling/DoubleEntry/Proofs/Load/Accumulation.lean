import DoubleEntry.Proofs.Load.Expansion
import DoubleEntry.Proofs.Token.Append

/-! Loading a text in two parts, cut between lines, and loading it as a whole. -/
namespace DoubleEntry

theorem Source.tokens_eq_ok_iff {s : Source} {tokens : List Token} :
    s.tokens = .ok tokens ↔ directives s.lines = .ok tokens := mapError_eq_ok_iff

/-- The tokens of a text that goes on after a line end. -/
theorem Source.exists_tokens_append {text rest : String} (h : IsWhole text) {name : Option String}
    {tokens others : List Token} (htokens : (ofText text name).tokens = .ok tokens)
    (hothers : (ofText rest name).tokens = .ok others) :
    ∃ tokens' others', (ofText (text ++ rest) name).tokens = .ok (tokens' ++ others') ∧
      List.Forall₂ Token.KeepsMeaning tokens tokens' ∧
      List.Forall₂ Token.KeepsMeaning others others' := by
  rw [tokens_eq_ok_iff] at htokens hothers
  obtain ⟨above, last, hlast, htext, hrest⟩ := exists_lines_append h name
  obtain ⟨below, hboth, hbelow⟩ := hrest rest
  obtain ⟨others', hothers', hmoved⟩ := directives_below hbelow hothers
  rw [htext] at htokens
  obtain ⟨tokens', htokens', hmeaning⟩ := directives_append hlast htokens hothers'
  refine ⟨tokens', others', ?_, hmeaning, hmoved.meansSame.imp fun _ _ => Token.MeansSame.keepsMeaning⟩
  rw [tokens_eq_ok_iff, hboth]
  exact htokens'

namespace Ledger

variable {files : Files} {stack : List String} {source : Option String}

theorem runToken_of_keepsMeaning {t t' : Token} (h : t.KeepsMeaning t') {l after : Ledger}
    (hrun : (l.runToken files stack source t).result = .ok after) :
    (l.runToken files stack source t').result = .ok after := by
  unfold runToken at hrun ⊢
  cases hd : Directive.ofToken t with
  | error error =>
    rw [hd] at hrun
    contradiction
  | ok d =>
    rw [hd] at hrun
    rw [h d hd]
    exact hrun

theorem result_loadTokens_cons_eq_ok_iff {t : Token} {ts : List Token} {l after : Ledger} :
    (l.loadTokens files stack source (t :: ts)).result = .ok after ↔
      ∃ middle, (l.runToken files stack source t).result = .ok middle ∧
        (middle.loadTokens files stack source ts).result = .ok after := by
  rw [loadTokens_cons, Run.result_andThen, Run.result_addNote]
  exact bind_eq_ok_iff.trans (by simp only [mapError_eq_ok_iff])

theorem loadTokens_of_keepsMeaning {ts ts' : List Token}
    (h : List.Forall₂ Token.KeepsMeaning ts ts') {l after : Ledger}
    (hload : (l.loadTokens files stack source ts).result = .ok after) :
    (l.loadTokens files stack source ts').result = .ok after := by
  induction h generalizing l with
  | nil => exact hload
  | cons ht hts ih =>
    rw [result_loadTokens_cons_eq_ok_iff] at hload ⊢
    obtain ⟨middle, hrun, hrest⟩ := hload
    exact ⟨middle, runToken_of_keepsMeaning ht hrun, ih hrest⟩

theorem result_loadTokens_append (ts us : List Token) (l : Ledger) :
    (l.loadTokens files stack source (ts ++ us)).result =
      (l.loadTokens files stack source ts).result >>= fun middle =>
        (middle.loadTokens files stack source us).result := by
  induction ts generalizing l with
  | nil =>
    rw [loadTokens_nil]
    rfl
  | cons t ts ih =>
    rw [List.cons_append, loadTokens_cons, loadTokens_cons, Run.result_andThen, Run.result_andThen]
    cases ((l.runToken files stack source t).addNote (noteOf source t)).result with
    | error failure => rfl
    | ok first => exact ih first

theorem result_load_eq_ok_iff {l after : Ledger} {text : String} :
    (l.load files text source).result = .ok after ↔
      ∃ name tokens, files.nameOf source = .ok name ∧ (Source.ofText text name).tokens = .ok tokens ∧
        (l.loadTokens files name.toList name tokens).result = .ok after := by
  unfold load
  cases files.nameOf source with
  | error error => simp [Run.fail]
  | ok name => cases h : (Source.ofText text name).tokens <;> simp [h, Run.fail]

/-- Loading a text that stops between lines, and then another one on top, is loading both at once. -/
theorem load_append {l middle after : Ledger} {files : Files} {source : Option String}
    {text rest : String} (hwhole : text = "" ∨ text.toList.getLast? = some '\n')
    (htext : (l.load files text source).result = .ok middle)
    (hrest : (middle.load files rest source).result = .ok after) :
    (l.load files (text ++ rest) source).result = .ok after := by
  rw [result_load_eq_ok_iff] at htext hrest ⊢
  obtain ⟨name, tokens, hname, htokens, hload⟩ := htext
  obtain ⟨_, others, hsame, hothers, hmore⟩ := hrest
  obtain rfl := Except.ok.inj (hname.symm.trans hsame)
  obtain ⟨tokens', others', hboth, hmeaning, hmoved⟩ :=
    Source.exists_tokens_append hwhole htokens hothers
  refine ⟨name, tokens' ++ others', hname, hboth, ?_⟩
  rw [result_loadTokens_append, loadTokens_of_keepsMeaning hmeaning hload]
  exact loadTokens_of_keepsMeaning hmoved hmore

/-! ## Texts of statements -/

theorem loadTokens_of_statements {ts : List Token} {statements : List Statement}
    (h : ts.mapM Directive.ofToken = .ok (statements.map .statement)) {l after : Ledger}
    (hprocess : statements.foldlM process l = .ok after) :
    (l.loadTokens files stack source ts).result = .ok after := by
  have hmeaning := List.forall₂_map_right_iff.1 (mapM_eq_ok_iff.1 h)
  clear h
  induction hmeaning generalizing l with
  | nil =>
    cases hprocess
    rw [loadTokens_nil]
    rfl
  | @cons t s ts ss ht hts ih =>
    rw [List.foldlM_cons] at hprocess
    obtain ⟨middle, hs, hrest⟩ := bind_eq_ok_iff.1 hprocess
    rw [result_loadTokens_cons_eq_ok_iff]
    refine ⟨middle, ?_, ih hrest⟩
    unfold runToken
    rw [ht]
    simp only
    rw [result_run, hs]
    rfl

/-- The directives that a text means, if it means any. -/
def directivesOf? (text : String) : Option (List Directive) :=
  (Source.ofText text none).tokens.toOption.bind fun ts => (ts.mapM Directive.ofToken).toOption

theorem load_of_statements (files : Files) (text : String) {statements : List Statement}
    (h : directivesOf? text = some (statements.map .statement)) {l after : Ledger}
    (hprocess : statements.foldlM process l = .ok after) :
    (l.load files text none).result = .ok after := by
  obtain ⟨tokens, htokens, hmeaning⟩ := Option.bind_eq_some_iff.1 h
  rw [result_load_eq_ok_iff]
  exact ⟨none, tokens, rfl, toOption_eq_some_iff.1 htokens,
    loadTokens_of_statements (toOption_eq_some_iff.1 hmeaning) hprocess⟩

def lunchText : String :=
  "unit USD\n2021-10-28 open Assets:Cash\n2021-10-28 * \"Lunch\"\n    Assets:Cash  10 USD\n"

def lunch : List Statement :=
  let cash := (AccountName.ofText? "Assets:Cash").get (by decide +kernel)
  let day := (Date.ofText? "2021-10-28").get (by decide +kernel)
  [.unit "USD", .openAccount day cash,
    .transaction day ⟨.settled, none, "Lunch"⟩ [⟨cash, some ⟨⟨false, 10, 0⟩, "USD", []⟩⟩]]

/-- The transaction at the cut takes in the comment below it. -/
theorem load_append_lunch :
    ∃ middle after : Ledger,
      ((empty false).load .empty lunchText none).result = .ok middle ∧
      (middle.load .empty "    ; paid\nunit EUR\n" none).result = .ok after ∧
      ((empty false).load .empty (lunchText ++ "    ; paid\nunit EUR\n") none).result =
        .ok after := by
  have hok : ((lunch ++ [Statement.unit "EUR"]).foldlM process (empty false)).toOption.isSome =
      true := by decide +kernel
  obtain ⟨after, hafter⟩ := Option.isSome_iff_exists.1 hok
  rw [toOption_eq_some_iff, List.foldlM_append] at hafter
  obtain ⟨middle, hlunch, hmore⟩ := bind_eq_ok_iff.1 hafter
  have htext := load_of_statements .empty lunchText (by decide +kernel) hlunch
  have hrest := load_of_statements .empty "    ; paid\nunit EUR\n" (by decide +kernel) hmore
  exact ⟨middle, after, htext, hrest, load_append (.inr (by decide)) htext hrest⟩

end Ledger
end DoubleEntry
