import DoubleEntry.Proofs.Collection.Traversal
import DoubleEntry.Proofs.Token.Lexeme
import DoubleEntry.Token.Reading

/-! Rules for scans. `Ensures` is about cursors and results: what holds before a scan and after it.
`Gives` says what holds of every result. `Reads` says that a scan reads just a given text where it
stands before a given rest. -/
namespace DoubleEntry

namespace Scan

/-! ## What a scan ensures -/

section

variable {α β : Type} {P P' : Cursor → Prop} {Q Q' : α → Cursor → Prop} {R : β → Cursor → Prop}

/-- From a cursor with the first property the scan only gets to results and cursors with the
second. -/
def Ensures (P : Cursor → Prop) (m : Scan α) (Q : α → Cursor → Prop) : Prop :=
  ∀ (c next : Cursor) (a : α), P c → m c = .ok (a, next) → Q a next

theorem Ensures.mono {m : Scan α} (h : Ensures P m Q) (hpre : ∀ c, P' c → P c)
    (hpost : ∀ a c, Q a c → Q' a c) : Ensures P' m Q' :=
  fun c next a hc hrun => hpost a next (h c next a (hpre c hc) hrun)

theorem Ensures.pure {a : α} (h : ∀ c, P c → Q a c) : Ensures P (pure a) Q := by
  intro c next b hc hrun
  rw [pure_apply] at hrun
  cases hrun
  exact h c hc

theorem Ensures.bind {m : Scan α} {f : α → Scan β} (hm : Ensures P m Q)
    (hf : ∀ a, Ensures (Q a) (f a) R) : Ensures P (m >>= f) R := by
  intro c next b hc hrun
  rw [bind_apply] at hrun
  cases h : m c with
  | error stray =>
    rw [h] at hrun
    contradiction
  | ok result =>
    obtain ⟨a, middle⟩ := result
    rw [h] at hrun
    exact hf a middle next b (hm c middle a hc h) hrun

theorem ensures_fail (expected : Expected) : Ensures P (fail expected) Q := by
  intro c next a hc hrun
  contradiction

/-- What is read next is read from the cursor that was looked up. -/
theorem Ensures.get_bind {f : Cursor → Scan β} (h : ∀ start, P start → Ensures (· = start) (f start) R) :
    Ensures P (get >>= f) R :=
  fun c next b hc hrun => h c hc c next b rfl hrun

theorem ensures_liftM {r : Except Stray α} : Ensures P (liftM r) fun a c => P c ∧ r = .ok a := by
  intro c next a hc hrun
  cases r with
  | error stray => contradiction
  | ok b =>
    cases hrun
    exact ⟨hc, rfl⟩

theorem ensures_throw (stray : Stray) : Ensures P (throw stray) Q := by
  intro c next a hc hrun
  contradiction

theorem ensures_isAtLineEnd : Ensures P isAtLineEnd fun _ => P := by
  intro c next atEnd hc hrun
  cases hrun
  exact hc

end

variable {α β : Type} {P : α → Prop} {Q : β → Prop}

/-! ## What a scan gives -/

def Gives (m : Scan α) (P : α → Prop) : Prop :=
  ∀ (c next : Cursor) (a : α), m c = .ok (a, next) → P a

theorem gives_iff_ensures {m : Scan α} :
    Gives m P ↔ Ensures (fun _ => True) m fun a _ => P a :=
  ⟨fun h c next a _ hrun => h c next a hrun, fun h c next a hrun => h c next a trivial hrun⟩

theorem gives_any (m : Scan α) : Gives m fun _ => True := fun _ _ _ _ => trivial

theorem Gives.mono {P' : α → Prop} {m : Scan α} (h : Gives m P) (himp : ∀ a, P a → P' a) :
    Gives m P' := fun c next a hrun => himp a (h c next a hrun)

theorem Gives.pure {a : α} (h : P a) : Gives (pure a) P :=
  gives_iff_ensures.2 (.pure fun _ _ => h)

theorem Gives.bind {m : Scan α} {f : α → Scan β} (hm : Gives m P)
    (hf : ∀ a, P a → Gives (f a) Q) : Gives (m >>= f) Q :=
  gives_iff_ensures.2 ((gives_iff_ensures.1 hm).bind fun a c next b ha => hf a ha c next b)

/-- Only the result of the second scan matters. -/
theorem Gives.andThen {m : Scan α} {f : α → Scan β} (hf : ∀ a, Gives (f a) Q) :
    Gives (m >>= f) Q := (gives_any m).bind fun a _ => hf a

/-- What holds of the parts with any text and position around them holds of the token. -/
theorem Gives.nodeFrom {start : Cursor} {rule : Rule} {children : List Token} {P : Token → Prop}
    (h : ∀ text position, P ⟨rule, text, position, children⟩) :
    Gives (nodeFrom start rule children) P := by
  intro c next t hrun
  cases hrun
  exact h _ _

theorem Gives.node {rule : Rule} {inner : Scan (List Token)} {P : Token → Prop}
    (h : Gives inner fun children => ∀ text position, P ⟨rule, text, position, children⟩) :
    Gives (node rule inner) P := by
  unfold Scan.node
  exact Gives.andThen fun start => h.bind fun children hchildren => Gives.nodeFrom hchildren

theorem Gives.lineOf {rule : Rule} {inner : Scan (List Token)} {P : Token → Prop}
    (h : Gives inner fun children => ∀ text position, P ⟨rule, text, position, children⟩) :
    Gives (lineOf rule inner) P := by
  unfold Scan.lineOf
  exact (Gives.node h).bind fun t ht => Gives.andThen fun _ => Gives.pure ht

theorem gives_lexeme (kind : Lexeme) :
    Gives (lexeme kind) fun t => t.rule = kind.rule ∧ ∃ cs, kind.read? cs = some t.text.toList := by
  intro c next t hrun
  unfold lexeme at hrun
  cases h : kind.read? c.rest with
  | none =>
    rw [h] at hrun
    contradiction
  | some text =>
    rw [h] at hrun
    cases hrun
    exact ⟨rfl, c.rest, by simpa [Token.leaf] using h⟩

end Scan

theorem Cursor.rest_skipGap (c : Cursor) : c.skipGap.rest = c.rest.dropWhile Text.isGap := by
  unfold skipGap
  rw [rest_advance]
  calc
    c.rest.drop (c.rest.takeWhile Text.isGap).length
    _ = (c.rest.takeWhile Text.isGap ++ c.rest.dropWhile Text.isGap).drop
          (c.rest.takeWhile Text.isGap).length := by rw [List.takeWhile_append_dropWhile]
    _ = c.rest.dropWhile Text.isGap := List.drop_left

@[simp] theorem Cursor.rest_toLineEnd (c : Cursor) : c.toLineEnd.rest = [] := by
  unfold rest toLineEnd
  exact List.drop_length

namespace Scan

variable {α β : Type} {P : α → Prop} {Q : β → Prop} {text more rest : List Char}

/-! ## What a scan reads -/

/-- In front of the text and the rest the scan succeeds, and stops in front of the rest. -/
def Reads (m : Scan α) (text rest : List Char) (P : α → Prop) : Prop :=
  ∀ c : Cursor, c.rest = text ++ rest → ∃ a next, m c = .ok (a, next) ∧ next.rest = rest ∧ P a

theorem Reads.mono {P' : α → Prop} {m : Scan α} (h : Reads m text rest P)
    (himp : ∀ a, P a → P' a) : Reads m text rest P' := by
  intro c hc
  obtain ⟨a, next, hrun, hnext, ha⟩ := h c hc
  exact ⟨a, next, hrun, hnext, himp a ha⟩

theorem Reads.pure {a : α} (h : P a) : Reads (pure a) [] rest P := by
  intro c hc
  exact ⟨a, c, pure_apply a c, hc, h⟩

theorem Reads.bind {m : Scan α} {f : α → Scan β} (hm : Reads m text (more ++ rest) P)
    (hf : ∀ a, P a → Reads (f a) more rest Q) : Reads (m >>= f) (text ++ more) rest Q := by
  intro c hc
  rw [List.append_assoc] at hc
  obtain ⟨a, middle, hrun, hmiddle, ha⟩ := hm c hc
  obtain ⟨b, next, hrest, hnext, hb⟩ := hf a ha middle hmiddle
  refine ⟨b, next, ?_, hnext, hb⟩
  rw [bind_apply, hrun]
  exact hrest

/-- The first scan takes nothing. -/
theorem Reads.look {m : Scan α} {f : α → Scan β} (hm : Reads m [] (text ++ rest) P)
    (hf : ∀ a, P a → Reads (f a) text rest Q) : Reads (m >>= f) text rest Q := hm.bind hf

/-- The second scan takes nothing. -/
theorem Reads.close {m : Scan α} {f : α → Scan β} (hm : Reads m text rest P)
    (hf : ∀ a, P a → Reads (f a) [] rest Q) : Reads (m >>= f) text rest Q := by
  have hbind : Reads (m >>= f) (text ++ []) rest Q := hm.bind hf
  rwa [List.append_nil] at hbind

theorem reads_get : Reads get [] rest fun c => c.rest = rest := by
  intro c hc
  exact ⟨c, c, get_apply c, hc, hc⟩

theorem reads_gap (what : String) (h : rest.head?.any Text.isInk = true) :
    Reads (gap what) [' '] rest fun _ => True := by
  intro c hc
  refine ⟨(), c.skipGap, ?_, ?_, trivial⟩
  · unfold gap
    rw [hc]
    rfl
  · rw [Cursor.rest_skipGap, hc]
    cases rest with
    | nil => contradiction
    | cons d ds =>
      have hd : Text.isGap d = false := Text.isGap_of_isInk (by simpa using h)
      rw [List.cons_append, List.nil_append, List.dropWhile_cons_of_pos rfl,
        List.dropWhile_cons_of_neg (by simp [hd])]

theorem Reads.gap {f : Unit → Scan β} {what : String}
    (h : (more ++ rest).head?.any Text.isInk = true) (hf : Reads (f ()) more rest Q) :
    Reads (gap what >>= f) (' ' :: more) rest Q :=
  (reads_gap what h).bind fun _ _ => hf

theorem reads_lexeme {kind : Lexeme} (h : kind.read? (text ++ rest) = some text) :
    Reads (lexeme kind) text rest fun t => t.rule = kind.rule ∧ t.text = .ofList text := by
  intro c hc
  refine ⟨.leaf kind.rule (.ofList text) c.position, c.advance text.length, ?_, ?_, rfl, rfl⟩
  · unfold lexeme
    rw [hc, h]
  · rw [Cursor.rest_advance, hc, List.drop_left]

theorem reads_keyword (word : String) (rest : List Char) :
    Reads (keyword word) word.toList (' ' :: rest) fun _ => True := by
  intro c hc
  have hdrop : (word.toList ++ ' ' :: rest).drop word.length = ' ' :: rest := by
    rw [← String.length_toList, List.drop_left]
  refine ⟨(), c.advance word.length, ?_, ?_, trivial⟩
  · unfold keyword startsWith
    rw [hc, hdrop, List.isPrefixOf_iff_prefix.2 (List.prefix_append _ _)]
    rfl
  · rw [Cursor.rest_advance, hc, hdrop]

theorem reads_advance (word : String) (rest : List Char) :
    Reads (modify (·.advance word.length)) word.toList rest fun _ => True := by
  intro c hc
  refine ⟨(), c.advance word.length, rfl, ?_, trivial⟩
  rw [Cursor.rest_advance, hc, ← String.length_toList, List.drop_left]

theorem reads_liftM {r : Except Stray α} {a : α} (h : r = .ok a) :
    Reads (liftM r) [] rest (· = a) := by
  intro c hc
  rw [h]
  exact ⟨a, c, rfl, hc, rfl⟩

theorem Reads.nodeFrom {start : Cursor} {rule : Rule} {children : List Token} {P : Token → Prop}
    (h : ∀ text position, P ⟨rule, text, position, children⟩) :
    Reads (nodeFrom start rule children) [] rest P := by
  intro c hc
  exact ⟨_, c, rfl, hc, h _ _⟩

theorem Reads.node {rule : Rule} {inner : Scan (List Token)} {P : Token → Prop}
    (h : Reads inner text rest fun children => ∀ text position, P ⟨rule, text, position, children⟩) :
    Reads (node rule inner) text rest P := by
  unfold Scan.node
  exact reads_get.look fun start _ => h.close fun children hchildren => Reads.nodeFrom hchildren

theorem atLineEnd_of_nil {c : Cursor} (h : c.rest = []) : c.atLineEnd = true := by
  unfold Cursor.atLineEnd
  rw [Cursor.rest_skipGap, h]
  rfl

/-- What goes on with a space and ink is a comment only if the ink is its mark. -/
theorem atLineEnd_of_ink {c : Cursor} (h : c.rest = ' ' :: rest)
    (hrest : rest.head?.any Text.isInk = true) : c.atLineEnd = false := by
  unfold Cursor.atLineEnd
  rw [Cursor.rest_skipGap, h, List.dropWhile_cons_of_pos rfl]
  cases rest with
  | nil => contradiction
  | cons d ds =>
    have hd : Text.isInk d = true := by simpa using hrest
    have hmark : d ≠ commentMark := by
      rintro rfl
      contradiction
    rw [List.dropWhile_cons_of_neg (by simp [Text.isGap_of_isInk hd])]
    simpa using hmark

theorem reads_lineEnd : Reads lineEnd [] [] fun _ => True := by
  intro c hc
  refine ⟨(), c.toLineEnd, ?_, c.rest_toLineEnd, trivial⟩
  unfold lineEnd
  rw [if_pos (atLineEnd_of_nil hc)]

theorem Reads.lineOf {rule : Rule} {inner : Scan (List Token)} {P : Token → Prop}
    (h : Reads inner text [] fun children => ∀ text position, P ⟨rule, text, position, children⟩) :
    Reads (lineOf rule inner) text [] P := by
  unfold Scan.lineOf
  exact (Reads.node h).close fun t ht => reads_lineEnd.close fun _ _ => Reads.pure ht

theorem reads_isAtLineEnd_nil : Reads isAtLineEnd [] [] (· = true) := by
  intro c hc
  exact ⟨_, c, rfl, hc, atLineEnd_of_nil hc⟩

theorem reads_isAtLineEnd_ink (h : rest.head?.any Text.isInk = true) :
    Reads isAtLineEnd [] (' ' :: rest) (· = false) := by
  intro c hc
  exact ⟨_, c, rfl, hc, atLineEnd_of_ink hc h⟩

theorem reads_priceFollows_nil : Reads priceFollows [] [] (· = false) := by
  intro c hc
  refine ⟨false, c, ?_, hc, rfl⟩
  unfold priceFollows
  rw [hc]
  rfl

theorem reads_priceFollows_mark (rest : List Char) :
    Reads priceFollows [' ', priceMark] (' ' :: rest) (· = true) := by
  intro c hc
  have hskip : c.skipGap.rest = priceMark :: ' ' :: rest := by
    rw [Cursor.rest_skipGap, hc]
    rfl
  refine ⟨true, c.skipGap.advance 1, ?_, ?_, rfl⟩
  · unfold priceFollows
    rw [hskip, hc]
    rfl
  · rw [Cursor.rest_advance, hskip]
    rfl

end Scan

/-! ## Directives line by line -/

theorem directives_nil : directives [] = .ok [] := by
  rw [directives]

theorem directives_of_isVacant {line : Line} {below : List Line} (h : line.isVacant = true) :
    directives (line :: below) = directives below := by
  rw [directives, if_pos h]

theorem directives_of_directive {line : Line} {below left : List Line} {token : Token}
    (hvacant : line.isVacant = false) (h : directive line below = .ok (token, left)) :
    directives (line :: below) = (token :: ·) <$> directives left := by
  rw [directives, if_neg (by simp [hvacant])]
  split
  · rename_i stray hstray
    rw [h] at hstray
    contradiction
  · rename_i token' left' hdirective
    rw [h] at hdirective
    cases hdirective
    cases directives left <;> rfl

theorem exists_directive_of_directives {line : Line} {below : List Line} {tokens : List Token}
    (hvacant : line.isVacant = false) (h : directives (line :: below) = .ok tokens) :
    ∃ token left rest, directive line below = .ok (token, left) ∧ directives left = .ok rest ∧
      tokens = token :: rest := by
  cases hdirective : directive line below with
  | error stray =>
    rw [directives, if_neg (by simp [hvacant])] at h
    split at h
    · contradiction
    · simp_all
  | ok found =>
    obtain ⟨token, left⟩ := found
    rw [directives_of_directive hvacant hdirective] at h
    obtain ⟨rest, hrest, rfl⟩ := map_eq_ok_iff.1 h
    exact ⟨token, left, rest, rfl, hrest, rfl⟩

theorem forall_mem_directives {P : Token → Prop}
    (hdirective : ∀ line below token left, directive line below = .ok (token, left) → P token)
    {lines : List Line} {tokens : List Token} (h : directives lines = .ok tokens) :
    ∀ t ∈ tokens, P t := by
  fun_induction directives lines generalizing tokens with
  | case1 =>
    cases h
    simp
  | case2 line below hvacant ih => exact ih h
  | case3 line below hvacant stray hstray => contradiction
  | case4 line below hvacant token left hfound _ stray hleft ih => contradiction
  | case5 line below hvacant token left hfound _ rest hleft ih =>
    cases h
    exact List.forall_mem_cons.2 ⟨hdirective line below token left hfound, ih hleft⟩

end DoubleEntry
