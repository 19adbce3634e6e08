import DoubleEntry.Proofs.Token.ScanRules
import DoubleEntry.Token.Place

/-! Equal lines further down are read in the same way: the tokens are the same, so many lines
further down. -/
namespace DoubleEntry

theorem allMovedUp_eq_map (lines : Nat) (ts : List Token) :
    allMovedUp lines ts = ts.map (·.movedUp lines) := by
  induction ts with
  | nil => rfl
  | cons t ts ih => rw [allMovedUp, ih, List.map_cons]

structure Line.IsBelow (lines : Nat) (line line' : Line) : Prop where
  chars : line'.chars = line.chars
  number : line'.number = line.number + lines

/-- The same place of an equal line further down. -/
structure Cursor.IsBelow (lines : Nat) (c c' : Cursor) : Prop where
  line : c.line.IsBelow lines c'.line
  column : c'.column = c.column

/-- The same token further down. -/
def Token.IsBelow (lines : Nat) (t t' : Token) : Prop := t'.movedUp lines = t

def TokensBelow (lines : Nat) (ts ts' : List Token) : Prop := allMovedUp lines ts' = ts

theorem tokensBelow_nil (lines : Nat) : TokensBelow lines [] [] := rfl

theorem TokensBelow.cons {lines : Nat} {t t' : Token} {ts ts' : List Token}
    (ht : t.IsBelow lines t') (hts : TokensBelow lines ts ts') :
    TokensBelow lines (t :: ts) (t' :: ts') := by
  unfold TokensBelow
  rw [allMovedUp, ht, hts]

theorem tokensBelow_of_forall₂ {lines : Nat} {ts ts' : List Token}
    (h : List.Forall₂ (Token.IsBelow lines) ts ts') : TokensBelow lines ts ts' := by
  induction h with
  | nil => exact tokensBelow_nil lines
  | cons ht _ ih => exact .cons ht ih

theorem TokensBelow.eq_nil_iff {lines : Nat} {ts ts' : List Token} (h : TokensBelow lines ts ts') :
    ts' = [] ↔ ts = [] := by
  rw [← h, allMovedUp_eq_map, List.map_eq_nil_iff]

theorem Token.isBelow_node {lines : Nat} {rule : Rule} {text : String} {position : Position}
    {children children' : List Token} (h : TokensBelow lines children children') :
    IsBelow lines ⟨rule, text, position, children⟩
      ⟨rule, text, { position with line := position.line + lines }, children'⟩ := by
  unfold IsBelow Token.movedUp
  rw [h, Nat.add_sub_cancel]

namespace Line.IsBelow

variable {lines : Nat} {line line' : Line}

theorem cursor (h : line.IsBelow lines line') : line.cursor.IsBelow lines line'.cursor := ⟨h, rfl⟩

end Line.IsBelow

namespace Cursor.IsBelow

variable {lines : Nat} {c c' : Cursor}

theorem rest (h : c.IsBelow lines c') : c'.rest = c.rest := by
  unfold Cursor.rest
  rw [h.line.chars, h.column]

theorem advance (h : c.IsBelow lines c') (count : Nat) :
    (c.advance count).IsBelow lines (c'.advance count) :=
  ⟨h.line, congrArg (· + count) h.column⟩

theorem skipGap (h : c.IsBelow lines c') : c.skipGap.IsBelow lines c'.skipGap := by
  unfold Cursor.skipGap
  rw [h.rest]
  exact h.advance _

theorem toLineEnd (h : c.IsBelow lines c') : c.toLineEnd.IsBelow lines c'.toLineEnd :=
  ⟨h.line, congrArg List.length h.line.chars⟩

theorem atLineEnd (h : c.IsBelow lines c') : c'.atLineEnd = c.atLineEnd := by
  unfold Cursor.atLineEnd
  rw [h.skipGap.rest]

theorem position (h : c.IsBelow lines c') :
    c'.position = { c.position with line := c.position.line + lines } := by
  unfold Cursor.position
  rw [h.line.number, h.column]

theorem textTo {start start' : Cursor} (hstart : start.IsBelow lines start')
    (h : c.IsBelow lines c') : start'.textTo c' = start.textTo c := by
  unfold Cursor.textTo
  rw [hstart.rest, h.column, hstart.column]

end Cursor.IsBelow

theorem Line.IsBelow.isVacant {lines : Nat} {line line' : Line} (h : line.IsBelow lines line') :
    line'.isVacant = line.isVacant := h.cursor.atLineEnd

theorem Line.IsBelow.isIndented {lines : Nat} {line line' : Line} (h : line.IsBelow lines line') :
    line'.isIndented = line.isIndented := by
  unfold Line.isIndented
  rw [h.chars]

theorem Line.IsBelow.isComment {lines : Nat} {line line' : Line} (h : line.IsBelow lines line') :
    line'.isComment = line.isComment := by
  unfold Line.isComment
  rw [h.chars]

namespace Scan

variable {α α' β β' : Type} {lines : Nat} {R : α → α' → Prop} {S : β → β' → Prop}

/-! ## Rules -/

/-- Where the first scan succeeds, the second does so on the equal line below, with a related
result. -/
def Tracks (lines : Nat) (R : α → α' → Prop) (m : Scan α) (m' : Scan α') : Prop :=
  ∀ (c c' next : Cursor) (a : α), c.IsBelow lines c' → m c = .ok (a, next) →
    ∃ a' next', m' c' = .ok (a', next') ∧ next.IsBelow lines next' ∧ R a a'

theorem tracks_pure {a : α} {a' : α'} (h : R a a') : Tracks lines R (pure a) (pure a') := by
  intro c c' next b hc hrun
  rw [pure_apply] at hrun
  cases hrun
  exact ⟨a', c', rfl, hc, h⟩

theorem Tracks.bind {m : Scan α} {m' : Scan α'} {f : α → Scan β} {f' : α' → Scan β'}
    (hm : Tracks lines R m m') (hf : ∀ a a', R a a' → Tracks lines S (f a) (f' a')) :
    Tracks lines S (m >>= f) (m' >>= f') := by
  intro c c' next b hc hrun
  rw [bind_apply] at hrun
  cases h : m c with
  | error stray =>
    rw [h] at hrun
    contradiction
  | ok result =>
    obtain ⟨a, middle⟩ := result
    rw [h] at hrun
    obtain ⟨a', middle', hm', hmiddle, ha⟩ := hm c c' middle a hc h
    obtain ⟨b', next', hf', hnext, hb⟩ := hf a a' ha middle middle' next b hmiddle hrun
    refine ⟨b', next', ?_, hnext, hb⟩
    rw [bind_apply, hm']
    exact hf'

theorem Tracks.andThen {m : Scan α} {f f' : α → Scan β} {S : β → β → Prop}
    (hm : Tracks lines Eq m m) (hf : ∀ a, Tracks lines S (f a) (f' a)) :
    Tracks lines S (m >>= f) (m >>= f') :=
  hm.bind fun a _ h => h ▸ hf a

theorem tracks_get : Tracks lines (Cursor.IsBelow lines) get get := by
  intro c c' next a hc hrun
  rw [get_apply] at hrun
  cases hrun
  exact ⟨c', c', rfl, hc, hc⟩

theorem tracks_fail (expected : Expected) (m : Scan α') : Tracks lines R (fail expected) m := by
  intro c c' next a hc hrun
  contradiction

theorem tracks_throw (stray : Stray) (m : Scan α') : Tracks lines R (throw stray) m := by
  intro c c' next a hc hrun
  contradiction

theorem tracks_liftM {r : Except Stray α} {r' : Except Stray α'}
    (h : ∀ a, r = .ok a → ∃ a', r' = .ok a' ∧ R a a') :
    Tracks lines R (liftM r) (liftM r') := by
  intro c c' next a hc hrun
  cases hr : r with
  | error stray =>
    rw [hr] at hrun
    contradiction
  | ok b =>
    rw [hr] at hrun
    cases hrun
    obtain ⟨a', hr', ha⟩ := h _ hr
    exact ⟨a', c', by rw [hr']; rfl, hc, ha⟩

theorem tracks_advance (count : Nat) :
    Tracks lines Eq (modify (·.advance count)) (modify (·.advance count)) := by
  intro c c' next a hc hrun
  cases hrun
  exact ⟨(), c'.advance count, rfl, hc.advance count, rfl⟩

theorem tracks_gap (what : String) : Tracks lines Eq (gap what) (gap what) := by
  intro c c' next a hc hrun
  unfold gap at hrun ⊢
  rw [hc.rest]
  split at hrun
  · rename_i hgap
    cases hrun
    rw [if_pos hgap]
    exact ⟨(), c'.skipGap, rfl, hc.skipGap, rfl⟩
  · contradiction

theorem tracks_keyword (word : String) : Tracks lines Eq (keyword word) (keyword word) := by
  intro c c' next a hc hrun
  unfold keyword at hrun ⊢
  rw [hc.rest]
  split at hrun
  · rename_i hword
    cases hrun
    rw [if_pos hword]
    exact ⟨(), c'.advance word.length, rfl, hc.advance _, rfl⟩
  · contradiction

theorem tracks_lexeme (kind : Lexeme) :
    Tracks lines (Token.IsBelow lines) (lexeme kind) (lexeme kind) := by
  intro c c' next t hc hrun
  unfold lexeme at hrun ⊢
  rw [hc.rest, hc.position]
  cases h : kind.read? c.rest with
  | none =>
    rw [h] at hrun
    contradiction
  | some text =>
    rw [h] at hrun
    cases hrun
    exact ⟨_, _, rfl, hc.advance _, Token.isBelow_node (tokensBelow_nil lines)⟩

theorem tracks_nodeFrom {start start' : Cursor} {children children' : List Token} (rule : Rule)
    (hstart : start.IsBelow lines start') (h : TokensBelow lines children children') :
    Tracks lines (Token.IsBelow lines) (nodeFrom start rule children)
      (nodeFrom start' rule children') := by
  intro c c' next t hc hrun
  cases hrun
  refine ⟨_, c', rfl, hc, ?_⟩
  rw [hstart.position, hstart.textTo hc]
  exact Token.isBelow_node h

theorem tracks_node {inner : Scan (List Token)} (rule : Rule)
    (h : Tracks lines (TokensBelow lines) inner inner) :
    Tracks lines (Token.IsBelow lines) (node rule inner) (node rule inner) := by
  unfold node
  exact tracks_get.bind fun start start' hstart => h.bind fun children children' hchildren =>
    tracks_nodeFrom rule hstart hchildren

theorem tracks_lineEnd : Tracks lines Eq lineEnd lineEnd := by
  intro c c' next a hc hrun
  unfold lineEnd at hrun ⊢
  rw [hc.atLineEnd]
  split at hrun
  · rename_i hend
    cases hrun
    rw [if_pos hend]
    exact ⟨(), c'.toLineEnd, rfl, hc.toLineEnd, rfl⟩
  · contradiction

theorem tracks_lineOf {inner : Scan (List Token)} (rule : Rule)
    (h : Tracks lines (TokensBelow lines) inner inner) :
    Tracks lines (Token.IsBelow lines) (lineOf rule inner) (lineOf rule inner) := by
  unfold lineOf
  exact (tracks_node rule h).bind fun t t' ht => tracks_lineEnd.andThen fun _ => tracks_pure ht

theorem tracks_isAtLineEnd : Tracks lines Eq isAtLineEnd isAtLineEnd := by
  intro c c' next a hc hrun
  cases hrun
  exact ⟨_, c', rfl, hc, hc.atLineEnd.symm⟩

theorem tracks_priceFollows : Tracks lines Eq priceFollows priceFollows := by
  intro c c' next a hc hrun
  unfold priceFollows at hrun ⊢
  rw [hc.rest, hc.skipGap.rest]
  split at hrun
  · rename_i hprice
    cases hrun
    rw [if_pos hprice]
    exact ⟨true, _, rfl, hc.skipGap.advance 1, rfl⟩
  · rename_i hprice
    cases hrun
    rw [if_neg hprice]
    exact ⟨false, c', rfl, hc, rfl⟩

/-! ## The scans of the grammar -/

theorem tracks_amount : Tracks lines (Token.IsBelow lines) amount amount := by
  unfold amount
  apply tracks_node
  refine (tracks_lexeme .nominal).bind fun nominal nominal' hnominal => ?_
  refine (tracks_gap _).andThen fun _ => ?_
  refine (tracks_lexeme .currency).bind fun currency currency' hcurrency => ?_
  exact tracks_pure (.cons hnominal (.cons hcurrency (tokensBelow_nil lines)))

theorem tracks_amountWithPrice :
    Tracks lines (Token.IsBelow lines) amountWithPrice amountWithPrice := by
  unfold amountWithPrice
  apply tracks_node
  refine tracks_amount.bind fun first first' hfirst => ?_
  refine tracks_priceFollows.andThen fun follows => ?_
  cases follows with
  | false => exact tracks_pure (.cons hfirst (tokensBelow_nil lines))
  | true =>
    refine (tracks_gap _).andThen fun _ => tracks_amount.bind fun second second' hsecond => ?_
    exact tracks_pure (.cons hfirst (.cons hsecond (tokensBelow_nil lines)))

theorem tracks_option : Tracks lines (Token.IsBelow lines) option option := by
  unfold option
  apply tracks_lineOf
  refine (tracks_keyword _).andThen fun _ => (tracks_gap _).andThen fun _ => ?_
  refine (tracks_lexeme .string).bind fun key key' hkey => ?_
  refine (tracks_gap _).andThen fun _ => ?_
  refine (tracks_lexeme .string).bind fun value value' hvalue => ?_
  exact tracks_pure (.cons hkey (.cons hvalue (tokensBelow_nil lines)))

theorem tracks_includeFile : Tracks lines (Token.IsBelow lines) includeFile includeFile := by
  unfold includeFile
  apply tracks_lineOf
  refine (tracks_keyword _).andThen fun _ => (tracks_gap _).andThen fun _ => ?_
  refine (tracks_lexeme .string).bind fun path path' hpath => ?_
  exact tracks_pure (.cons hpath (tokensBelow_nil lines))

theorem tracks_unit : Tracks lines (Token.IsBelow lines) unit unit := by
  unfold unit
  apply tracks_lineOf
  refine (tracks_keyword _).andThen fun _ => (tracks_gap _).andThen fun _ => ?_
  refine (tracks_lexeme .currency).bind fun code code' hcode => ?_
  exact tracks_pure (.cons hcode (tokensBelow_nil lines))

theorem tracks_keywordLine : ∀ scan ∈ [option, includeFile, unit],
    Tracks lines (Token.IsBelow lines) scan scan :=
  forall_keywordLine tracks_option tracks_includeFile tracks_unit

theorem tracks_posting : Tracks lines (Token.IsBelow lines) posting posting := by
  unfold posting
  apply tracks_lineOf
  refine (tracks_lexeme .account).bind fun account account' haccount => ?_
  refine tracks_isAtLineEnd.andThen fun atEnd => ?_
  cases atEnd with
  | true => exact tracks_pure (.cons haccount (tokensBelow_nil lines))
  | false =>
    refine (tracks_gap _).andThen fun _ => ?_
    refine tracks_amountWithPrice.bind fun amount amount' hamount => ?_
    exact tracks_pure (.cons haccount (.cons hamount (tokensBelow_nil lines)))

theorem tracks_header : Tracks lines (Token.IsBelow lines) header header := by
  unfold header
  apply tracks_node
  refine (tracks_lexeme .flag).bind fun flag flag' hflag => (tracks_gap _).andThen fun _ => ?_
  refine (tracks_lexeme .string).bind fun first first' hfirst => ?_
  refine tracks_isAtLineEnd.andThen fun atEnd => ?_
  cases atEnd with
  | true => exact tracks_pure (.cons hflag (.cons hfirst (tokensBelow_nil lines)))
  | false =>
    refine (tracks_gap _).andThen fun _ => ?_
    refine (tracks_lexeme .string).bind fun second second' hsecond => ?_
    exact tracks_pure (.cons hflag (.cons hfirst (.cons hsecond (tokensBelow_nil lines))))

theorem tracks_opening (wanted : Option Rule) :
    Tracks lines (fun found found' => found.1.IsBelow lines found'.1 ∧ found'.2 = found.2)
      (opening wanted) (opening wanted) := by
  unfold opening
  refine (tracks_lexeme .date).bind fun date date' hdate => (tracks_gap _).andThen fun _ => ?_
  refine tracks_get.bind fun c c' hc => ?_
  rw [hc.rest]
  cases statementAhead? c.rest with
  | none => exact tracks_fail _ _
  | some found =>
    obtain ⟨word, rule⟩ := found
    cases wanted with
    | none => exact (tracks_advance _).andThen fun _ => tracks_pure ⟨hdate, rfl⟩
    | some other =>
      simp only
      split
      · exact (tracks_fail (R := fun _ _ => False) _ _).bind fun _ _ h => h.elim
      · exact (tracks_advance _).andThen fun _ => tracks_pure ⟨hdate, rfl⟩

theorem tracks_furtherString :
    Tracks lines (Token.IsBelow lines) furtherString furtherString := by
  unfold furtherString
  exact (tracks_gap _).andThen fun _ => tracks_lexeme .string

theorem tracks_furtherStrings :
    Tracks lines (TokensBelow lines) furtherStrings furtherStrings := by
  intro c c' next ts hc hrun
  fun_induction furtherStrings c generalizing c' next ts with
  | case1 c hend =>
    cases hrun
    rw [furtherStrings, if_pos (hc.atLineEnd.trans hend)]
    exact ⟨[], c', rfl, hc, tokensBelow_nil lines⟩
  | case2 c hend stray hstray => contradiction
  | case3 c hend token middle hstring _ stray hrest ih => contradiction
  | case4 c hend token middle hstring _ tokens stop hrest ih =>
    cases hrun
    obtain ⟨token', middle', hstring', hmiddle, htoken⟩ :=
      tracks_furtherString c c' middle token hc hstring
    obtain ⟨tokens', stop', hrest', hstop, htokens⟩ := ih middle' stop tokens hmiddle hrest
    refine ⟨token' :: tokens', stop', ?_, hstop, .cons htoken htokens⟩
    rw [furtherStrings, if_neg (by rw [hc.atLineEnd]; exact hend)]
    split
    · simp_all
    · simp_all

theorem tracks_arguments (rule : Rule) :
    Tracks lines (TokensBelow lines) (arguments rule) (arguments rule) := by
  unfold arguments
  split
  · refine (tracks_gap _).andThen fun _ => ?_
    refine (tracks_lexeme .string).bind fun first first' hfirst => ?_
    exact tracks_furtherStrings.bind fun others others' hothers => tracks_pure (.cons hfirst hothers)
  · refine (tracks_gap _).andThen fun _ => ?_
    refine (tracks_lexeme .account).bind fun target target' htarget => ?_
    refine (tracks_gap _).andThen fun _ => ?_
    refine (tracks_lexeme .account).bind fun source source' hsource => ?_
    exact tracks_pure (.cons htarget (.cons hsource (tokensBelow_nil lines)))
  · refine (tracks_gap _).andThen fun _ => ?_
    refine (tracks_lexeme .account).bind fun account account' haccount => ?_
    refine (tracks_gap _).andThen fun _ => tracks_amount.bind fun amount amount' hamount => ?_
    exact tracks_pure (.cons haccount (.cons hamount (tokensBelow_nil lines)))
  · refine (tracks_gap _).andThen fun _ => ?_
    refine (tracks_lexeme .currency).bind fun currency currency' hcurrency => ?_
    refine (tracks_gap _).andThen fun _ => tracks_amount.bind fun amount amount' hamount => ?_
    exact tracks_pure (.cons hcurrency (.cons hamount (tokensBelow_nil lines)))
  · refine (tracks_gap _).andThen fun _ => ?_
    refine (tracks_lexeme .account).bind fun account account' haccount => ?_
    exact tracks_pure (.cons haccount (tokensBelow_nil lines))

end Scan

/-! ## Directives -/

section

variable {lines : Nat}

abbrev LinesBelow (lines : Nat) : List Line → List Line → Prop :=
  List.Forall₂ (Line.IsBelow lines)

theorem LinesBelow.takeWhile {body body' : List Line} (h : LinesBelow lines body body') :
    LinesBelow lines (body.takeWhile (·.isIndented)) (body'.takeWhile (·.isIndented)) := by
  induction h with
  | nil => exact .nil
  | @cons line line' body body' hline hbody ih =>
    rw [List.takeWhile_cons, List.takeWhile_cons, hline.isIndented]
    split
    · exact .cons hline ih
    · exact .nil

theorem LinesBelow.dropWhile {body body' : List Line} (h : LinesBelow lines body body') :
    LinesBelow lines (body.dropWhile (·.isIndented)) (body'.dropWhile (·.isIndented)) := by
  induction h with
  | nil => exact .nil
  | @cons line line' body body' hline hbody ih =>
    rw [List.dropWhile_cons, List.dropWhile_cons, hline.isIndented]
    split
    · exact ih
    · exact .cons hline hbody

theorem LinesBelow.chars {body body' : List Line} (h : LinesBelow lines body body') :
    body'.map Line.chars = body.map Line.chars := by
  induction h with
  | nil => rfl
  | cons hline hbody ih => rw [List.map_cons, List.map_cons, hline.chars, ih]

/-- A line in place of another: a comment where that is one, else with a posting where that has one.
-/
structure Line.PostsAs (S : Token → Token → Prop) (line line' : Line) : Prop where
  isComment : line'.isComment = line.isComment
  posting : ∀ t next, Scan.posting line.cursor.skipGap = .ok (t, next) →
    ∃ t' next', Scan.posting line'.cursor.skipGap = .ok (t', next') ∧ S t t'

theorem exists_postingsOf {S : Token → Token → Prop} {body body' : List Line}
    (h : List.Forall₂ (Line.PostsAs S) body body') {postings : List Token}
    (hpostings : postingsOf body = .ok postings) :
    ∃ postings', postingsOf body' = .ok postings' ∧ List.Forall₂ S postings postings' := by
  unfold postingsOf at hpostings ⊢
  induction h generalizing postings with
  | nil =>
    cases hpostings
    exact ⟨[], rfl, .nil⟩
  | @cons line line' body body' hline _ ih =>
    rw [List.filter_cons] at hpostings ⊢
    rw [hline.isComment]
    split at hpostings
    · rename_i hposting
      rw [List.mapM_cons] at hpostings
      obtain ⟨t, ht, hpostings⟩ := bind_eq_ok_iff.1 hpostings
      obtain ⟨ts, hts, hpostings⟩ := bind_eq_ok_iff.1 hpostings
      cases hpostings
      obtain ⟨⟨token, next⟩, hrun, rfl⟩ := map_eq_ok_iff.1 ht
      obtain ⟨token', next', hrun', htoken⟩ := hline.posting token next hrun
      obtain ⟨ts', hts', htokens⟩ := ih hts
      refine ⟨token' :: ts', ?_, .cons htoken htokens⟩
      rw [if_pos hposting, List.mapM_cons, hrun', hts']
      rfl
    · rename_i hcomment
      rw [if_neg hcomment]
      exact ih hpostings

theorem LinesBelow.postingsOf {body body' : List Line} (h : LinesBelow lines body body')
    {postings : List Token} (hpostings : postingsOf body = .ok postings) :
    ∃ postings', DoubleEntry.postingsOf body' = .ok postings' ∧
      TokensBelow lines postings postings' := by
  have hposts : List.Forall₂ (Line.PostsAs (Token.IsBelow lines)) body body' := by
    refine h.imp fun line line' hline => ⟨hline.isComment, fun t next hrun => ?_⟩
    obtain ⟨t', next', hrun', _, ht⟩ :=
      Scan.tracks_posting _ _ next t hline.cursor.skipGap hrun
    exact ⟨t', next', hrun', ht⟩
  obtain ⟨postings', hpostings', htokens⟩ := exists_postingsOf hposts hpostings
  exact ⟨postings', hpostings', tokensBelow_of_forall₂ htokens⟩

theorem tracks_transactionFrom {start start' : Cursor} {date date' : Token}
    {below below' : List Line} (hbelow : LinesBelow lines below below')
    (hstart : start.IsBelow lines start') (hdate : date.IsBelow lines date') :
    Scan.Tracks lines (Token.IsBelow lines) (transactionFrom start date below)
      (transactionFrom start' date' below') := by
  unfold transactionFrom
  refine Scan.tracks_header.bind fun header header' hheader => ?_
  refine Scan.tracks_lineEnd.andThen fun _ => ?_
  refine (Scan.tracks_liftM fun postings => hbelow.takeWhile.postingsOf).bind ?_
  intro postings postings' hpostings
  simp only [hpostings.eq_nil_iff]
  split
  · exact (Scan.tracks_throw (R := fun _ _ => False) _ _).bind fun _ _ h => h.elim
  apply Scan.tracks_pure
  rw [hstart.rest, hbelow.takeWhile.chars, hstart.position, hstart.line.number,
    Nat.add_right_comm]
  exact Token.isBelow_node (.cons hdate (.cons hheader
    (.cons (Token.isBelow_node hpostings) (tokensBelow_nil lines))))

/-! The relations between tokens and between the lines left below them are open, since a transaction
may be followed by other lines than before. -/

variable {R S : Token → Token → Prop} {L : List Line → List Line → Prop} {below below' : List Line}

/-- A token with the lines left below it. -/
def FoundBelow (R : Token → Token → Prop) (L : List Line → List Line → Prop)
    (found found' : Token × List Line) : Prop := R found.1 found'.1 ∧ L found.2 found'.2

theorem tracks_dated (wanted : Option Rule) (hR : ∀ t t', t.IsBelow lines t' → R t t')
    (htransaction : ∀ start start' date date', start.IsBelow lines start' →
      date.IsBelow lines date' → Scan.Tracks lines R (transactionFrom start date below)
        (transactionFrom start' date' below'))
    (hbelow : L below below')
    (hleft : L (below.dropWhile (·.isIndented)) (below'.dropWhile (·.isIndented))) :
    Scan.Tracks lines (FoundBelow R L) (dated wanted below) (dated wanted below') := by
  unfold dated
  refine Scan.tracks_get.bind fun start start' hstart => ?_
  refine (Scan.tracks_opening wanted).bind ?_
  intro found found' hfound
  obtain ⟨date, rule⟩ := found
  obtain ⟨date', rule'⟩ := found'
  obtain ⟨hdate, rfl⟩ := hfound
  simp only
  split
  · refine (htransaction _ _ _ _ hstart hdate).bind fun t t' ht => ?_
    exact Scan.tracks_pure ⟨ht, hleft⟩
  · refine (Scan.tracks_arguments _).bind fun children children' hchildren => ?_
    refine (Scan.tracks_nodeFrom _ hstart (.cons hdate hchildren)).bind fun t t' ht => ?_
    exact Scan.tracks_lineEnd.andThen fun _ => Scan.tracks_pure ⟨hR t t' ht, hbelow⟩

theorem tracks_statement (hdated : Scan.Tracks lines (FoundBelow R L) (dated none below)
      (dated none below'))
    (hwrap : ∀ t t', R t t' →
      S ⟨.statement, t.text, t.position, [t]⟩ ⟨.statement, t'.text, t'.position, [t']⟩) :
    Scan.Tracks lines (FoundBelow S L) (statement below) (statement below') := by
  unfold statement
  refine hdated.bind fun found found' hfound => Scan.tracks_pure ?_
  exact ⟨hwrap _ _ hfound.1, hfound.2⟩

theorem directive_tracked {line line' : Line} {left : List Line} {token : Token}
    (hline : line.IsBelow lines line') (hS : ∀ t t', t.IsBelow lines t' → S t t')
    (hbelow : L below below')
    (hstatement : Scan.Tracks lines (FoundBelow S L) (statement below) (statement below'))
    (h : directive line below = .ok (token, left)) :
    ∃ token' left', directive line' below' = .ok (token', left') ∧ S token token' ∧
      L left left' := by
  rcases directive_cases line.chars with hstray | ⟨scan, hmem, hscan⟩ | hread
  · obtain ⟨stray, hstray, -⟩ := hstray line below rfl
    rw [hstray] at h
    contradiction
  · rw [hscan line below rfl] at h
    obtain ⟨⟨t, next⟩, hrun, heq⟩ := map_eq_ok_iff.1 h
    cases heq
    obtain ⟨t', next', hrun', _, ht⟩ := Scan.tracks_keywordLine scan hmem _ _ _ _ hline.cursor hrun
    refine ⟨t', below', ?_, hS _ _ ht, hbelow⟩
    rw [hscan line' below' hline.chars, hrun']
    rfl
  · rw [hread line below rfl] at h
    obtain ⟨⟨⟨t, rest⟩, next⟩, hrun, heq⟩ := map_eq_ok_iff.1 h
    cases heq
    obtain ⟨⟨t', rest'⟩, next', hrun', _, ht, hrest⟩ :=
      hstatement _ _ _ _ hline.cursor hrun
    refine ⟨t', rest', ?_, ht, hrest⟩
    rw [hread line' below' hline.chars, hrun']
    rfl

theorem Token.IsBelow.statement {t t' : Token} (h : t.IsBelow lines t') :
    IsBelow lines ⟨.statement, t.text, t.position, [t]⟩ ⟨.statement, t'.text, t'.position, [t']⟩ := by
  have htokens : TokensBelow lines [t] [t'] := .cons h (tokensBelow_nil lines)
  obtain ⟨rule', text', position', children'⟩ := t'
  cases h
  unfold IsBelow Token.movedUp
  rw [htokens]
  rfl

/-- A list of lines further down is read as the same directives further down. -/
theorem directives_below {tokens : List Token} (hbelow : LinesBelow lines below below')
    (h : directives below = .ok tokens) :
    ∃ tokens', directives below' = .ok tokens' ∧ TokensBelow lines tokens tokens' := by
  fun_induction directives below generalizing below' tokens with
  | case1 =>
    cases h
    cases hbelow
    exact ⟨[], directives_nil, tokensBelow_nil lines⟩
  | case2 line below hvacant ih =>
    cases hbelow with
    | cons hline hbelow =>
      rw [directives_of_isVacant (hline.isVacant.trans hvacant)]
      exact ih hbelow h
  | case3 line below hvacant stray hstray => contradiction
  | case4 line below hvacant token left hdirective _ stray hleft ih => contradiction
  | case5 line below hvacant token left hdirective _ rest hrest ih =>
    cases h
    cases hbelow with
    | cons hline hbelow =>
      have hdated := tracks_dated none (fun _ _ => id)
        (fun _ _ _ _ => tracks_transactionFrom hbelow) hbelow (LinesBelow.dropWhile hbelow)
      have hstatement := tracks_statement hdated fun _ _ => Token.IsBelow.statement
      obtain ⟨token', left', hdirective', htoken, hleft⟩ :=
        directive_tracked hline (fun _ _ => id) hbelow hstatement hdirective
      obtain ⟨rest', hrest', htokens⟩ := ih hleft hrest
      have hvacant' := hline.isVacant.trans (Bool.eq_false_iff.2 hvacant)
      refine ⟨token' :: rest', ?_, .cons htoken htokens⟩
      rw [directives_of_directive hvacant' hdirective', hrest']
      rfl

end

end DoubleEntry
