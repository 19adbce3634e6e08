import Mathlib

/-! Programs that change a state step by step. What a program has changed before it fails, it leaves
changed. -/
namespace DoubleEntry

variable {ε ε' σ τ α β : Type}

@[simp] theorem ok_bind (a : α) (f : α → Except ε β) : (Except.ok a : Except ε α) >>= f = f a := rfl

@[simp] theorem error_bind (error : ε) (f : α → Except ε β) :
    (Except.error error : Except ε α) >>= f = .error error := rfl

@[simp] theorem run_throw (error : ε) (s : σ) :
    (throw error : EStateM ε σ α).run s = .error error s := rfl

/-- The last state of a run, and what it returned. -/
def outcome : EStateM.Result ε σ α → σ × Except ε α
  | .ok a s => (s, .ok a)
  | .error error s => (s, .error error)

/-- Runs a program on a part of the state. What it changed there stays, also where it fails. -/
def onPart (part : τ → σ) (put : τ → σ → τ) (wrap : ε → ε') (program : EStateM ε σ α) :
    EStateM ε' τ α := fun s =>
  match program (part s) with
  | .ok a after => .ok a (put s after)
  | .error error after => .error (wrap error) (put s after)

@[simp] theorem run_onPart (part : τ → σ) (put : τ → σ → τ) (wrap : ε → ε')
    (program : EStateM ε σ α) (s : τ) :
    (onPart part put wrap program).run s =
      match program.run (part s) with
      | .ok a after => .ok a (put s after)
      | .error error after => .error (wrap error) (put s after) := rfl

/-! ## Lookups -/

/-- What was found in a state, which stays as it is. -/
def found (s : σ) : Except ε α → EStateM.Result ε σ α
  | .ok a => .ok a s
  | .error error => .error error s

@[simp] theorem found_ok (s : σ) (a : α) : (found s (.ok a) : EStateM.Result ε σ α) = .ok a s := rfl

@[simp] theorem found_error (s : σ) (error : ε) :
    (found s (.error error) : EStateM.Result ε σ α) = .error error s := rfl

/-- Looks something up in the state. -/
def lookUp (f : σ → Except ε α) : EStateM ε σ α := fun s => found s (f s)

@[simp] theorem run_lookUp (f : σ → Except ε α) (s : σ) : (lookUp f).run s = found s (f s) := rfl

section

variable {s : σ} {program : EStateM ε σ α} {m : Except ε α}

theorem run_bind_found {next : α → EStateM ε σ β} {f : α → Except ε β}
    (h : program.run s = found s m) (hnext : ∀ a, (next a).run s = found s (f a)) :
    (program >>= next).run s = found s (m >>= f) := by
  rw [EStateM.run_bind, h]
  cases m with
  | ok a => exact hnext a
  | error error => rfl

theorem run_mapM_found {program : α → EStateM ε σ β} {f : α → Except ε β}
    (h : ∀ a, (program a).run s = found s (f a)) (as : List α) :
    (as.mapM program).run s = found s (as.mapM f) := by
  induction as with
  | nil => rfl
  | cons a as ih =>
    rw [List.mapM_cons, List.mapM_cons]
    exact run_bind_found (h a) fun b => run_bind_found ih fun bs => rfl

theorem run_optionMapM_found {program : α → EStateM ε σ β} {f : α → Except ε β}
    (h : ∀ a, (program a).run s = found s (f a)) (a : Option α) :
    (a.mapM program).run s = found s (a.mapM f) := by
  cases a with
  | none => rfl
  | some a => exact run_bind_found (h a) fun b => rfl

end

end DoubleEntry
