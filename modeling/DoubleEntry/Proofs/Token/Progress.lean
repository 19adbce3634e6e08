import DoubleEntry.Proofs.Token.PostingCount
import DoubleEntry.Proofs.Token.Stages

/-! Reading comes to an end. No step goes back in the text, and a step that stays where it is comes
closer to the end of its loop. -/
namespace DoubleEntry

theorem ScanGoal.reached_cases (goal : ScanGoal) (d : Token) (offset : Nat) :
    (∃ found t, goal = .ledger found ∧
      goal.reached d offset = .seeking (.ledger (found ++ [t])) offset) ∨
    ∃ rule t, goal = .alone rule ∧ goal.reached d offset = .closing t offset := by
  cases goal with
  | ledger found => exact .inl ⟨found, _, rfl, rfl⟩
  | alone rule => cases rule <;> exact .inr ⟨_, _, rfl, rfl⟩

theorem Source.PassesLine.of_le {s : Source} {a b c : Nat} (h : s.PassesLine b c) (hle : a ≤ b) :
    s.PassesLine a c :=
  ⟨Nat.le_trans (pastLine_mono hle) h.past, h.le, h.broken⟩

namespace ScanStage

variable {s : Source} {stage later : ScanStage} {result : Except ReadingError (List Token)}

/-! ## The end of reading -/

/-- More than the steps that are left: four for each character, and those that stay at an offset. -/
def stepsLeft (s : Source) : ScanStage → Nat
  | .seeking _ offset => 4 * (s.chars.length - offset) + 2
  | .listing _ _ _ c => 4 * (s.chars.length - c.offset) + 3
  | .posting _ _ _ offset => 4 * (s.chars.length - offset) + 3
  | .closing _ offset => 4 * (s.chars.length - offset) + 1
  | .ended _ => 0

theorem stepsLeft_reached_le (goal : ScanGoal) (d : Token) (offset : Nat) :
    (goal.reached d offset).stepsLeft s ≤ 4 * (s.chars.length - offset) + 2 := by
  rcases goal.reached_cases d offset with ⟨_, _, -, h⟩ | ⟨_, _, -, h⟩ <;> rw [h] <;>
    simp only [stepsLeft] <;> omega

theorem Onward.stepsLeft_lt (h : Onward s stage later) (hstage : ∀ r, stage ≠ .ended r) :
    later.stepsLeft s < stage.stepsLeft s := by
  -- a step ahead in the text makes up for the stages of higher rank that may come next
  cases h with
  | vacant hlt hpasses | trailing hlt hpasses | directive _ hlt hpasses | posting hlt hpasses =>
    have hle := hpasses.le
    simp only [stepsLeft]
    omega
  | openTransaction hlt hpasses =>
    have hle := hpasses.le
    simp only [stepsLeft]
    omega
  | token hle =>
    simp only [stepsLeft]
    omega
  | openList hlt hle | argument hlt hle =>
    simp only [stepsLeft]
    omega
  | @listed goal start c children d b later hle hpasses hlater =>
    have hreached := stepsLeft_reached_le (s := s) goal d b
    rw [hlater]
    refine Nat.lt_of_le_of_lt hreached ?_
    simp only [stepsLeft]
    omega
  | @posted goal transaction found d a later hlater =>
    have hreached := stepsLeft_reached_le (s := s) goal d a
    rw [hlater]
    refine Nat.lt_of_le_of_lt hreached ?_
    simp only [stepsLeft]
    omega
  | ended =>
    cases stage <;> simp only [stepsLeft] <;> first | omega | exact absurd rfl (hstage _)

theorem means_iterate (h : Means s stage result) (steps : Nat) :
    Means s ((next s)^[steps] stage) result := by
  induction steps generalizing stage with
  | zero => exact h
  | succ steps ih => exact ih (leads_next h).means

theorem exists_ended (h : Means s stage result) :
    ∃ steps ≤ stage.stepsLeft s, (next s)^[steps] stage = .ended result := by
  -- on the steps that are left, which are fewer after each step until reading has ended
  generalize hleft : stage.stepsLeft s = left
  induction left using Nat.strongRecOn generalizing stage with
  | ind left ih =>
    have hnext := leads_next h
    by_cases hended : ∃ r, stage = .ended r
    · obtain ⟨r, rfl⟩ := hended
      obtain rfl : result = r := h
      exact ⟨0, Nat.zero_le _, rfl⟩
    · have hlt := hnext.onward.stepsLeft_lt fun r hr => hended ⟨r, hr⟩
      obtain ⟨steps, hsteps, hiterate⟩ := ih _ (hleft ▸ hlt) hnext.means rfl
      exact ⟨steps + 1, by omega, hiterate⟩

/-! ## Up to the next directive -/

/-- What reading directives from an offset on comes to, with so many found up to there. -/
def Follows (s : Source) (offset count : Nat) : ScanStage → Prop
  | .seeking (.ledger found) a => count ≤ found.length ∧ offset ≤ a ∧
      (count < found.length → offset < a ∧ s.PassesLine offset a)
  | .listing (.ledger found) _ _ c => count ≤ found.length ∧ offset < c.offset
  | .posting (.ledger found) _ _ a => count ≤ found.length ∧ offset < a ∧ s.PassesLine offset a
  | .ended _ => True
  | _ => False

section

variable {offset count : Nat}

theorem follows_reached {found : List Token} {d : Token} {a : Nat} (hcount : count ≤ found.length)
    (hlt : offset < a) (hpasses : s.PassesLine offset a) :
    Follows s offset count ((ScanGoal.ledger found).reached d a) := by
  refine ⟨?_, Nat.le_of_lt hlt, fun _ => ⟨hlt, hpasses⟩⟩
  rw [List.length_append]
  omega

theorem Follows.step (h : Follows s offset count stage) (hon : Onward s stage later) :
    Follows s offset count later := by
  -- only a whole text counts its directives; what one stage has passed, the next has passed, too
  cases hon with
  | @vacant goal a b hlt hpasses =>
    cases goal with
    | alone rule => exact h.elim
    | ledger found =>
      obtain ⟨hcount, hle, -⟩ := h
      exact ⟨hcount, by omega, fun _ => ⟨by omega, hpasses.of_le hle⟩⟩
  | trailing => exact h.elim
  | token => exact h.elim
  | directive hmore hlt hpasses =>
    obtain ⟨hcount, hle, -⟩ := h
    exact ⟨by omega, by omega, fun _ => ⟨by omega, hpasses.of_le hle⟩⟩
  | @openList goal =>
    cases goal with
    | alone rule => exact h.elim
    | ledger found => exact ⟨h.1, Nat.lt_of_le_of_lt h.2.1 (by assumption)⟩
  | @openTransaction goal transaction a b hlt hpasses =>
    cases goal with
    | alone rule => exact h.elim
    | ledger found => exact ⟨h.1, Nat.lt_of_le_of_lt h.2.1 hlt, hpasses.of_le h.2.1⟩
  | @argument goal start c c' children children' hlt =>
    cases goal with
    | alone rule => exact h.elim
    | ledger found => exact ⟨h.1, Nat.lt_trans h.2 hlt⟩
  | @listed goal start c children d b later hle hpasses hlater =>
    cases goal with
    | alone rule => exact h.elim
    | ledger found =>
      rw [hlater]
      exact follows_reached h.1 (Nat.lt_of_lt_of_le h.2 hle) (hpasses.of_le (Nat.le_of_lt h.2))
  | @posting goal transaction found found' a b hlt hpasses =>
    cases goal with
    | alone rule => exact h.elim
    | ledger found => exact ⟨h.1, Nat.lt_trans h.2.1 hlt, hpasses.of_le (Nat.le_of_lt h.2.1)⟩
  | @posted goal transaction found d a later hlater =>
    cases goal with
    | alone rule => exact h.elim
    | ledger found =>
      rw [hlater]
      exact follows_reached h.1 h.2.1 h.2.2
  | ended => trivial

theorem Follows.iterate (h : Follows s offset count stage) (hmeans : Means s stage result)
    (steps : Nat) : Follows s offset count ((next s)^[steps] stage) := by
  induction steps generalizing stage with
  | zero => exact h
  | succ steps ih =>
    have hnext := leads_next hmeans
    exact ih (h.step hnext.onward) hnext.means

end

/-! ## Rounds -/

theorem roundsAdvance (h : Means s stage result) : stage.RoundsAdvance s where
  vacant := by
    rintro goal a b rfl hlater
    have hon := (leads_next h).onward
    rw [hlater] at hon
    cases hon with
    | vacant hlt hpasses => exact ⟨hlt, hpasses⟩
    | directive _ hlt hpasses => exact ⟨hlt, hpasses⟩
  trailing := by
    rintro t a b rfl hlater
    have hon := (leads_next h).onward
    rw [hlater] at hon
    cases hon with
    | trailing hlt hpasses => exact ⟨hlt, hpasses⟩
  posting := by
    rintro goal transaction found found' a b rfl hlater
    have hon := (leads_next h).onward
    rw [hlater] at hon
    cases hon with
    | posting hlt hpasses => exact ⟨hlt, hpasses⟩
    | @posted _ _ _ d _ _ hreached =>
      rcases goal.reached_cases d a with ⟨_, _, -, heq⟩ | ⟨_, _, -, heq⟩ <;>
        exact absurd (hreached.trans heq) (by simp)
  argument := by
    rintro goal start children children' c c' rfl hlater
    have hon := (leads_next h).onward
    rw [hlater] at hon
    cases hon with
    | argument hlt hle => exact hlt
    | @listed _ _ _ _ d b _ hle hpasses hreached =>
      rcases goal.reached_cases d b with ⟨_, _, -, heq⟩ | ⟨_, _, -, heq⟩ <;>
        exact absurd (hreached.trans heq) (by simp)
  directive := by
    rintro found found' a b steps rfl hlater hmore
    have hstart : Follows s a found.length (.seeking (.ledger found) a) :=
      ⟨Nat.le_refl _, Nat.le_refl _, fun hlt => absurd hlt (Nat.lt_irrefl _)⟩
    have hfollows := hstart.iterate h steps
    rw [hlater] at hfollows
    exact hfollows.2.2 hmore

end ScanStage

namespace Source

/-- From the start of any text, read by any rule, each round of a loop gets on: past the line it is
on, or past another string on it. So reading ends, with what the rule reads, and a text has at least
as many lines that are not empty as it has directives and postings. -/
theorem reading_advances (s : Source) :
    (∀ rule, (∀ steps, ((ScanStage.next s)^[steps] (.opening rule)).RoundsAdvance s) ∧
      ∃ steps ≤ 4 * s.chars.length + 2,
        (ScanStage.next s)^[steps] (.opening rule) = .ended (s.outcome rule)) ∧
    ∀ tokens, s.tokens = .ok tokens →
      tokens.length + countAll .posting tokens ≤ (Text.pieces s.chars).countP (· ≠ []) := by
  refine ⟨fun rule => ?_, fun tokens htokens => ?_⟩
  · have hmeans := ScanStage.means_opening s rule
    refine ⟨fun steps => ScanStage.roundsAdvance (ScanStage.means_iterate hmeans steps), ?_⟩
    have hopening : (ScanStage.opening rule).stepsLeft s = 4 * s.chars.length + 2 := by
      cases rule <;> rfl
    rw [← hopening]
    exact ScanStage.exists_ended hmeans
  · have hcount := count_directives (mapError_eq_ok_iff.1 htokens)
    rwa [countWritten_lines] at hcount

/-- A comment, a custom statement with two strings, and a transaction with a comment in it. -/
def receipts : Source := ofText
  ("; 2021\n2021-10-28 custom \"shop\" \t\"open\"\n2021-10-28 * \"Food\"\n" ++
    "\t ; at noon\n \tExpenses:Food  4 EUR\n  Assets:Cash\n \t") none

theorem reading_advances_receipts :
    (0 < 7 ∧ receipts.PassesLine 0 7) ∧
    ∃ tokens, receipts.tokens = .ok tokens ∧ tokens.length + countAll .posting tokens ≤ 7 ∧
      ∃ steps, (ScanStage.next receipts)^[steps] (.opening .ledger) = .ended (.ok tokens) := by
  obtain ⟨hrules, hcount⟩ := reading_advances receipts
  obtain ⟨hrounds, steps, -, hended⟩ := hrules .ledger
  have hvacant : receipts.pastVacant? 0 = some 7 := by decide +kernel
  have hwritten : (Text.pieces receipts.chars).countP (· ≠ []) = 7 := by decide +kernel
  have hread : receipts.tokens.toOption.isSome = true := by decide +kernel
  obtain ⟨tokens, htokens⟩ := Option.isSome_iff_exists.1 hread
  rw [toOption_eq_some_iff] at htokens
  have houtcome : receipts.outcome .ledger = .ok tokens := by
    unfold outcome token
    rw [htokens]
    rfl
  refine ⟨(hrounds 0).vacant (.ledger []) 0 7 rfl ?_, tokens, htokens,
    hwritten ▸ hcount tokens htokens, steps, houtcome ▸ hended⟩
  change ScanStage.next receipts (.seeking (.ledger []) 0) = _
  rw [ScanStage.next, hvacant]

end Source
end DoubleEntry
