import Formula.Proofs.Session.Execution
import Formula.Session

/-! The formula that a session keeps, after any steps. It is the tree of the last text that was parsed, read with the
registry of that moment. Whatever was registered since then, the registry has an entry for every operation it names. -/
namespace Formula

/- The steps that made the live session and the saved copy. A restored copy comes with its own past. -/
structure Lineage where
  live : List Step
  saved : List Step

def Lineage.extend (past : Lineage) : Step → Lineage
  | .save => ⟨past.live, past.live⟩
  | .restore => ⟨past.saved, past.saved⟩
  | step => ⟨past.live ++ [step], past.saved⟩

def lineage (steps : List Step) : Lineage := steps.foldl Lineage.extend ⟨[], []⟩

def Step.registration? : Step → Option Registration
  | .enroll registration => some registration
  | _ => none

def Registry.along (R : Registry) (past : List Step) : Registry := R.enrollAll (past.filterMap Step.registration?)

theorem alongQuiet (R : Registry) (past : List Step) {step : Step} (none : step.registration? = none) :
    R.along (past ++ [step]) = R.along past := by
  simp [Registry.along, none]

theorem alongEnroll (R : Registry) (past : List Step) (registration : Registration) :
    R.along (past ++ [.enroll registration]) = (R.along past).enroll registration := by
  simp [Registry.along, Registry.enrollAll, Step.registration?]

theorem placeInSnoc {past former later : List Step} {step place : Step}
    (split : past ++ [step] = former ++ place :: later) :
    (later = [] ∧ former = past ∧ place = step) ∨ ∃ rest, later = rest ++ [step] ∧ past = former ++ place :: rest := by
  rcases List.eq_nil_or_concat later with rfl | ⟨rest, last, rfl⟩
  · obtain ⟨rfl, same⟩ := List.append_inj' split rfl
    cases same
    exact .inl ⟨rfl, rfl, rfl⟩
  · have ends : past ++ [step] = (former ++ place :: rest) ++ [last] := by simp [split]
    obtain ⟨before, same⟩ := List.append_inj' ends rfl
    cases same
    exact .inr ⟨rest, by simp, before⟩

namespace Session
variable {R : Registry} {past : List Step} {s : Session}

structure Follows (R : Registry) (past : List Step) (s : Session) : Prop where
  registry : s.registry = R.along past
  latest : ∀ former text later, past = former ++ .parse text :: later → (∀ other, .parse other ∉ later) →
    s.current = ((R.along former).read text).toOption
  silent : (∀ text, .parse text ∉ past) → s.current = none
  executable : ∀ e, s.current = some e → Executable s.registry e

def Answers (s : Session) : Prop := ∀ bindings,
  (∀ kind name, s.evaluate bindings ≠ .error (.unsupported kind name)) ∧
  (s.evaluate bindings = .error .noFormula ↔ s.current = none)

theorem Follows.fresh (R : Registry) : Follows R [] (ofRegistry R) where
  registry := rfl
  latest := by simp
  silent _ := rfl
  executable := by simp [ofRegistry]

theorem Follows.parse (follows : Follows R past s) (text : String) :
    Follows R (past ++ [.parse text]) (s.parse text) where
  registry := follows.registry.trans (alongQuiet R past rfl).symm
  latest former other later split none := by
    rcases placeInSnoc split with ⟨rfl, rfl, same⟩ | ⟨rest, rfl, -⟩
    · cases same
      rw [← follows.registry]
      rfl
    · exact absurd (by simp) (none text)
  silent none := absurd (by simp) (none text)
  executable e kept := by
    have found : s.registry.read text = .ok e := by
      cases read : s.registry.read text with
      | error err => simp [Session.parse, read, Except.toOption] at kept
      | ok found => simpa [Session.parse, read, Except.toOption] using kept
    exact readExecutable found

theorem Follows.quiet {step : Step} (follows : Follows R past s) (quiet : ∀ text, step ≠ .parse text)
    {next : Session} (registry : next.registry = R.along (past ++ [step])) (current : next.current = s.current)
    (executable : ∀ e, s.current = some e → Executable next.registry e) : Follows R (past ++ [step]) next where
  registry := registry
  latest former text later split none := by
    rw [current]
    rcases placeInSnoc split with ⟨rfl, rfl, same⟩ | ⟨rest, rfl, before⟩
    · exact absurd same.symm (quiet text)
    · exact follows.latest former text rest before fun other member => none other (by simp [member])
  silent none := by
    rw [current]
    exact follows.silent fun text member => none text (by simp [member])
  executable e kept := executable e (current ▸ kept)

theorem Follows.enroll (follows : Follows R past s) (registration : Registration) :
    Follows R (past ++ [.enroll registration]) (s.enroll registration) := by
  refine follows.quiet (by simp) ?_ rfl fun e kept => executableEnroll registration (follows.executable e kept)
  rw [alongEnroll, ← follows.registry]
  rfl

theorem Follows.watch {step : Step} (follows : Follows R past s) (quiet : ∀ text, step ≠ .parse text)
    (none : step.registration? = none) : Follows R (past ++ [step]) s :=
  follows.quiet quiet (follows.registry.trans (alongQuiet R past none).symm) rfl follows.executable

theorem Follows.answers (follows : Follows R past s) : s.Answers := by
  intro bindings
  unfold evaluate evaluateWith
  cases kept : s.current with
  | none => simp
  | some e =>
    have supported := evaluateSupported bindings (follows.executable e kept)
    exact ⟨supported.2, by simpa using supported.1⟩

end Session

structure Workspace.Follows (R : Registry) (past : Lineage) (w : Workspace) : Prop where
  live : w.live.Follows R past.live
  saved : w.saved.Follows R past.saved

theorem Workspace.Follows.perform {R : Registry} {past : Lineage} {w : Workspace} (follows : w.Follows R past)
    (step : Step) : (w.perform step).2.Follows R (past.extend step) := by
  cases step with
  | parse text => exact ⟨follows.live.parse text, follows.saved⟩
  | preview text => exact ⟨follows.live.watch (by simp) rfl, follows.saved⟩
  | evaluate bindings => exact ⟨follows.live.watch (by simp) rfl, follows.saved⟩
  | enroll registration => exact ⟨follows.live.enroll registration, follows.saved⟩
  | save => exact ⟨follows.live, follows.live⟩
  | restore => exact ⟨follows.saved, follows.saved⟩

theorem Workspace.Follows.after {R : Registry} {past : Lineage} {w : Workspace} (follows : w.Follows R past)
    (steps : List Step) : (w.after steps).Follows R (steps.foldl Lineage.extend past) := by
  induction steps generalizing w past with
  | nil => exact follows
  | cons step steps ih => exact ih (follows.perform step)

theorem workspaceExecutable (R : Registry) (steps : List Step) :
    ((Workspace.ofRegistry R).after steps).Follows R (lineage steps) ∧
    ((Workspace.ofRegistry R).after steps).live.Answers ∧ ((Workspace.ofRegistry R).after steps).saved.Answers := by
  have fresh : (Workspace.ofRegistry R).Follows R ⟨[], []⟩ := ⟨.fresh R, .fresh R⟩
  have follows : ((Workspace.ofRegistry R).after steps).Follows R (lineage steps) := fresh.after steps
  exact ⟨follows, follows.live.answers, follows.saved.answers⟩

end Formula
