import DoubleEntry.Proofs.Load.Stages
import DoubleEntry.Proofs.Load.Verbosity

/-! What is seen of a load. A session prints where the changes are made; it comes to the same as
collecting the events and printing, at the end, those that are announced. -/
namespace DoubleEntry

namespace Console

theorem after_nil (console : Console) (v : Bool) : console.after v [] = console := by
  cases v <;> simp [after]

theorem after_append (console : Console) (v : Bool) (events more : List Event) :
    console.after v (events ++ more) = (console.after v events).after v more := by
  cases v <;> simp [after, List.append_assoc]

theorem after_fileRead (console : Console) (v : Bool) (path : String) :
    console.after v [.fileRead path] = { console with asked := console.asked ++ [path] } := by
  have hnone : [Event.fileRead path].filterMap Event.notice? = [] := rfl
  unfold after
  rw [hnone, ite_self, List.append_nil]
  rfl

end Console

namespace Session

variable {α β : Type}

/-- The program comes to the result of the run, and the events of the run are what is seen of it. -/
def Plays (program : Session α) (v : Bool) (r : Run α) : Prop :=
  ∀ console, program.play console = (r.result, console.after v r.events)

theorem plays_pure (v : Bool) (a : α) : Plays (pure a) v (.done a) := by
  intro console
  change _ = (_, console.after v [])
  rw [Console.after_nil]
  rfl

theorem plays_fail (v : Bool) (error : LoadError) :
    Plays (fail error : Session α) v (.fail error) := by
  intro console
  change _ = (_, console.after v [])
  rw [Console.after_nil]
  rfl

theorem play_bind (program : Session α) (f : α → Session β) (console : Console) :
    (program >>= f).play console =
      match program.play console with
      | (.ok a, later) => (f a).play later
      | (.error failure, later) => (.error failure, later) := by
  have hrun : (program >>= f).play console =
      match program.play console with
      | (result, later) => (ExceptT.bindCont f result).run later := rfl
  rw [hrun]
  obtain ⟨_ | _, later⟩ := program.play console <;> rfl

theorem Plays.bind {program : Session α} {v : Bool} {r : Run α} {f : α → Session β} {g : α → Run β}
    (h : Plays program v r) (hf : ∀ a, r.result = .ok a → Plays (f a) v (g a)) :
    Plays (program >>= f) v (r.andThen g) := by
  intro console
  rw [play_bind, h console]
  unfold Run.andThen
  cases hresult : r.result with
  | error failure => rfl
  | ok a =>
    simp only
    rw [hf a hresult, Console.after_append]

theorem Plays.noted {program : Session α} {v : Bool} {r : Run α} (h : Plays program v r)
    (note : String) : Plays (program.noted note) v (r.addNote note) := by
  intro console
  have hrun : (program.noted note).play console =
      match program.play console with
      | (result, later) => (result.mapError (·.addNote note), later) := rfl
  rw [hrun, h console]
  rfl

/-- A line that is printed first. -/
theorem Plays.say {f : Unit → Session α} {r : Run α} {l : Ledger} {v : Bool} (hl : l.verbose = v)
    (h : Plays (f ()) v r) {event : Event} (hevent : event.readPath? = none) :
    Plays (l.say event >>= f) v (.after [event] r) := by
  intro console
  have hsay : (l.say event).play console = (.ok (), console.after v [event]) := by
    subst hl
    unfold Ledger.say Console.after
    cases hline : event.notice? <;> cases l.verbose <;> simp [hline, hevent] <;> rfl
  rw [play_bind, hsay, Run.result_after, Run.events_after, Console.after_append]
  exact h _

theorem Plays.ask {f : Unit → Session α} {v : Bool} {r : Run α} (h : Plays (f ()) v r)
    (path : String) : Plays (Session.ask path >>= f) v (.after [.fileRead path] r) := by
  intro console
  have hask : (Session.ask path).play console = (.ok (), console.after v [.fileRead path]) := by
    rw [Console.after_fileRead]
    rfl
  rw [play_bind, hask, Run.result_after, Run.events_after, Console.after_append]
  exact h _

end Session

namespace Ledger

open Session

variable {files : Files} {stack : List String} {source : Option String}

/-! ## Loading aloud -/

theorem plays_change {after : Ledger} {v : Bool} (hafter : after.verbose = v) {event : Event}
    (hevent : event.readPath? = none) :
    Plays (do after.say event; return after) v (.after [event] (.done after)) :=
  .say hafter (plays_pure v after) hevent

theorem plays_processAloud (l : Ledger) (statement : Statement) :
    Plays (l.processAloud statement) l.verbose (l.run statement) := by
  cases statement with
  | unit code =>
    unfold processAloud run
    simp only [process]
    cases hdeclare : l.currencies.declare code with
    | error error => exact plays_fail _ _
    | ok declared =>
      have hindex := index?_of_declare hdeclare
      have hevents : ({ l with currencies := declared.1 } : Ledger).eventsOf (.unit code) =
          [.unitDeclared code declared.2] := by
        rw [eventsOf, hindex]
        rfl
      change Plays _ _ (.after (({ l with currencies := declared.1 } : Ledger).eventsOf _) (.done _))
      rw [hevents]
      exact plays_change rfl rfl
  | openAccount day account => exact plays_change rfl rfl
  | closeAccount day account =>
    unfold processAloud run
    simp only [process]
    cases l.accounts.closeAt account day with
    | error error => exact plays_fail _ _
    | ok closed => exact plays_change rfl rfl
  | _ =>
    unfold processAloud run
    simp only
    generalize process l _ = outcome
    cases outcome with
    | error error => exact plays_fail _ _
    | ok after => exact plays_pure _ _

/-- One directive, without the note on it. -/
def tokenAloud (l : Ledger) (files : Files) (stack : List String) (source : Option String)
    (t : Token) : Session Ledger :=
  match Directive.ofToken t with
  | .error error => Session.fail (.meaning error)
  | .ok (.option key value) => l.setOptionAloud key value
  | .ok (.statement statement) => l.processAloud statement
  | .ok (.includeFile path) => do
    let target := files.includeTarget source path
    l.say (.includeStarted target.text)
    l.loadTargetAloud files stack target

theorem loadTokensAloud_nil (l : Ledger) : l.loadTokensAloud files stack source [] = return l := by
  rw [loadTokensAloud]

theorem loadTokensAloud_cons (l : Ledger) (t : Token) (ts : List Token) :
    l.loadTokensAloud files stack source (t :: ts) =
      ((l.tokenAloud files stack source t).noted (noteOf source t)) >>=
        fun after => after.loadTokensAloud files stack source ts := by
  rw [loadTokensAloud]
  rfl

theorem loadFileAloud_eq (l : Ledger) (files : Files) (stack : List String) (path : String) :
    l.loadFileAloud files stack path =
      if path ∈ stack then Session.fail (.cycle path stack)
      else Session.ask path >>= fun _ =>
        match files.tokensOf stack path with
        | .error error => Session.fail error
        | .ok tokens => l.loadTokensAloud files (stack ++ [path]) (some path) tokens := by
  rw [loadFileAloud]
  by_cases hpath : path ∈ stack
  · rw [dif_pos hpath, if_pos hpath]
  · rw [dif_neg hpath, if_neg hpath]
    exact congrArg _ (funext fun _ => files.match_tokensOf hpath Session.fail _)

theorem plays_loadTargetAloud {v : Bool}
    (h : ∀ (l : Ledger) path, l.verbose = v →
      Plays (l.loadFileAloud files stack path) v (l.loadFile files stack path))
    {l : Ledger} (hl : l.verbose = v) (target : Path) :
    Plays (l.loadTargetAloud files stack target) v (l.loadTarget files stack target) := by
  rw [loadTargetAloud, loadTarget_eq]
  cases files.resolve target with
  | error error => exact plays_fail v _
  | ok path => exact h l path hl

theorem plays_tokenAloud {t : Token} {v : Bool}
    (h : ∀ (l : Ledger) path, l.verbose = v →
      Plays (l.loadFileAloud files stack path) v (l.loadFile files stack path))
    {l : Ledger} (hl : l.verbose = v) :
    Plays (l.tokenAloud files stack source t) v (l.runToken files stack source t) := by
  unfold tokenAloud runToken
  cases Directive.ofToken t with
  | error error => exact plays_fail v _
  | ok d =>
    cases d with
    | option key value =>
      have hafter : (l.setOption key value).verbose = v := hl
      exact plays_change hafter rfl
    | statement statement => exact hl ▸ l.plays_processAloud statement
    | includeFile path => exact Plays.say hl (plays_loadTargetAloud h hl _) rfl

theorem plays_loadTokensAloud {v : Bool}
    (h : ∀ (l : Ledger) path, l.verbose = v →
      Plays (l.loadFileAloud files stack path) v (l.loadFile files stack path))
    (tokens : List Token) {l : Ledger} (hl : l.verbose = v) :
    Plays (l.loadTokensAloud files stack source tokens) v
      (l.loadTokens files stack source tokens) := by
  induction tokens generalizing l with
  | nil =>
    rw [loadTokensAloud_nil, loadTokens_nil]
    exact plays_pure v l
  | cons t ts ih =>
    rw [loadTokensAloud_cons, loadTokens_cons]
    refine ((plays_tokenAloud h hl).noted _).bind fun after hafter => ih ?_
    rw [Run.result_addNote, mapError_eq_ok_iff] at hafter
    exact (verbose_of_runToken hafter).trans hl

theorem plays_loadFileAloud (stack : List String) :
    ∀ (l : Ledger) path,
      Plays (l.loadFileAloud files stack path) l.verbose (l.loadFile files stack path) := by
  induction stack using files.stack_induction with
  | h stack ih =>
    intro l path
    rw [loadFileAloud_eq, loadFile_eq]
    by_cases hpath : path ∈ stack
    · rw [if_pos hpath, if_pos hpath]
      exact plays_fail _ _
    rw [if_neg hpath, if_neg hpath]
    refine Plays.ask ?_ path
    cases h : files.tokensOf stack path with
    | error error => exact plays_fail _ _
    | ok tokens =>
      obtain ⟨_, text, hread, _⟩ := Files.tokensOf_eq_ok h
      exact plays_loadTokensAloud (fun l p hl => hl ▸ ih path text hpath hread l p) tokens rfl

theorem plays_loadAloud (l : Ledger) (files : Files) (text : String) (source : Option String) :
    Plays (l.loadAloud files text source) l.verbose (l.load files text source) := by
  unfold loadAloud load
  cases files.nameOf source with
  | error error => exact plays_fail _ _
  | ok name =>
    simp only
    cases (Source.ofText text name).tokens with
    | error error => exact plays_fail _ _
    | ok tokens => exact plays_loadTokensAloud (fun l p hl => hl ▸ plays_loadFileAloud _ l p) _ rfl

theorem plays_loadPathAloud (l : Ledger) (files : Files) (path : String) :
    Plays (l.loadPathAloud files path) l.verbose (l.loadPath files path) :=
  plays_loadTargetAloud (fun l p hl => hl ▸ plays_loadFileAloud [] l p) rfl _

theorem exists_notice_of_announcement {after : Ledger} {action : Action} {event : Event}
    (h : action.announcement after = some event) : ∃ line, event.notice? = some line := by
  cases action with
  | setOption key value =>
    cases h
    exact ⟨_, rfl⟩
  | enter target =>
    cases h
    exact ⟨_, rfl⟩
  | stop error => contradiction
  | apply statement =>
    cases statement with
    | unit code =>
      obtain ⟨index, _, rfl⟩ := Option.map_eq_some_iff.1 h
      exact ⟨_, rfl⟩
    | openAccount day account =>
      cases h
      exact ⟨_, rfl⟩
    | closeAccount day account =>
      cases h
      exact ⟨_, rfl⟩
    | _ => contradiction

/-- Every announcement is a line. -/
theorem map_notice?_announced (l : Ledger) (steps : List Step) :
    (l.announced steps).map Event.notice? =
      ((l.announced steps).filterMap Event.notice?).map some := by
  induction steps generalizing l with
  | nil => rfl
  | cons step steps ih =>
    rw [announced]
    cases l.perform step.action with
    | error error => rfl
    | ok after =>
      simp only [List.map_append, List.filterMap_append, ih]
      cases hevent : step.action.announcement after with
      | none => rfl
      | some event =>
        obtain ⟨line, hline⟩ := exists_notice_of_announcement hevent
        simp [hline]

theorem onlyPrints_of_plays {program : Ledger → Session Ledger} {run : Ledger → Run Ledger}
    {steps : List Step} (hplays : ∀ l, Plays (program l) l.verbose (run l))
    (hsame : ∀ v, run (empty v) = (run (empty true)).map (withVerbose v))
    (hfollowed : (empty true).FollowedBy steps (run (empty true))) :
    OnlyPrints ((program (empty false)).play .empty) ((program (empty true)).play .empty)
      ((empty true).announced steps) := by
  have hfalse := hsame false
  have htrue : (run (empty true)).result =
      (run (empty true)).result.map (withVerbose (empty true).verbose) :=
    congrArg Run.result (hsame true)
  have hquiet := hplays (empty false) .empty
  rw [hfalse] at hquiet
  rw [hquiet, hplays (empty true) .empty]
  refine ⟨rfl, fun after hafter => verbose_of_map htrue hafter, rfl, rfl, ?_⟩
  rw [map_notice?_announced, ← hfollowed.lines]
  rfl

/-- Of two loads into fresh ledgers, a quiet and a verbose one, the results differ in the flag only,
and the same files are asked for. The quiet one prints nothing; the other prints a line for each
setting, each change of a registry and each include on the way, also of one that fails later. What is
seen of a load into any ledger are the events that are collected for it. -/
theorem verbosity_only_prints (files : Files) :
    (∀ text source, OnlyPrints (((empty false).loadAloud files text source).play .empty)
      (((empty true).loadAloud files text source).play .empty)
      ((empty true).announced (files.expandText text source))) ∧
    (∀ path, OnlyPrints (((empty false).loadPathAloud files path).play .empty)
      (((empty true).loadPathAloud files path).play .empty)
      ((empty true).announced (files.expandPath path))) ∧
    ∀ (l : Ledger) text source,
      ∃ console, (l.loadAloud files text source).play .empty =
          ((l.load files text source).result, console) ∧
        String.join (console.printed.map (· ++ "\n")) = (l.load files text source).output l.verbose ∧
        console.asked = (l.load files text source).reads := by
  refine ⟨fun text source => ?_, fun path => ?_, fun l text source => ?_⟩
  · exact onlyPrints_of_plays (fun l => l.plays_loadAloud files text source)
      (fun v => (empty true).load_withVerbose v text source) ((empty true).followedBy_load files text source)
  · exact onlyPrints_of_plays (fun l => l.plays_loadPathAloud files path)
      (fun v => loadTarget_withVerbose v (loadFile_withVerbose v []) (empty true) _)
      ((empty true).followedBy_loadPath files path)
  · refine ⟨_, l.plays_loadAloud files text source .empty, ?_, rfl⟩
    unfold Console.after Run.output
    cases l.verbose <;> rfl

end Ledger
end DoubleEntry
