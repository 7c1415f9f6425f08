import Platypos.Slab.SlotHistory

namespace PlatyposSlab.SlotMachine

open CasLoop

variable {T : Type} [DecidableEq T]

/-- Everything one step of a thread can do, with the reads it rests on. -/
inductive Transition (debug : Bool) (s : System T) (t : T) : System T → Prop where
  | turn (pc : Pc) (quiet : ¬ pc.Busy) (calm : ∀ reason, pc ≠ .panicked reason)
      (holds : ∀ generation proposal, pc = .releasing generation proposal → (t, generation) ∈ s.refs) :
      Transition debug s t (s.setPc t pc)
  | acquired (generation : Nat) (new : Lifecycle)
      (proposed : s.lifecycle.acquireReference generation = .propose new ()) :
      Transition debug s t (s.afterAcquire t generation (.committed new ()))
  | acquirePanic (generation : Nat) (reason : Panic)
      (panicked : s.lifecycle.acquireReference generation = .panic reason) :
      Transition debug s t (s.setPc t (.panicked reason))
  | released (generation : Nat) (new : Lifecycle) (last : Bool) (held : (t, generation) ∈ s.refs)
      (proposed : s.lifecycle.releaseReference generation = .propose new last) :
      Transition debug s t (s.afterRelease t generation (.committed new last))
  | releaseRefused (generation : Nat) (error : LifecycleError) (held : (t, generation) ∈ s.refs)
      (refused : s.lifecycle.releaseReference generation = .refuse error) :
      Transition debug s t (s.afterRelease t generation (.refused error))
  | releasePanic (generation : Nat) (reason : Panic) (held : (t, generation) ∈ s.refs)
      (panicked : s.lifecycle.releaseReference generation = .panic reason) :
      Transition debug s t (s.setPc t (.panicked reason))
  | marked (generation : Nat) (new : Lifecycle) (unallocated : Bool)
      (proposed : s.lifecycle.markUnallocated generation = .propose new unallocated) :
      Transition debug s t (s.afterMark t generation (.committed new unallocated))
  | clearLoaded (new : Lifecycle) (granted : s.pc t = .clearing) (cleared : s.lifecycle.clear debug = .ok new) :
      Transition debug s t (s.setPc t (.storing new))
  | clearPanic (reason : Panic) (granted : s.pc t = .clearing) (failed : s.lifecycle.clear debug = .error reason) :
      Transition debug s t (s.setPc t (.panicked reason))
  | stored (new : Lifecycle) (storing : s.pc t = .storing new) :
      Transition debug s t ({ s with lifecycle := new }.setPc t .dropping)
  | dropped (dropping : s.pc t = .dropping) : Transition debug s t ({ s with vacant := true }.setPc t .idle)
  | allocLoaded (new : Lifecycle) (vacant : s.vacant = true) (loaded : s.lifecycle.allocate debug = .ok new) :
      Transition debug s t ({ s with vacant := false }.setPc t (.allocating new))
  | allocPanic (reason : Panic) (vacant : s.vacant = true) (failed : s.lifecycle.allocate debug = .error reason) :
      Transition debug s t ({ s with vacant := false }.setPc t (.panicked reason))
  | allocated (new : Lifecycle) (allocating : s.pc t = .allocating new) :
      Transition debug s t ({ s with lifecycle := new }.setPc t .idle)

section Inversion

variable (debug : Bool) {s s' : System T} {t : T}

theorem afterAcquire_transition {generation : Nat} {outcome : Outcome (Lifecycle.acquireReference generation)}
    (panicked : ∀ reason, outcome = .panicked reason → s.lifecycle.acquireReference generation = .panic reason)
    (committed : ∀ new, outcome = .committed new () →
      s.lifecycle.acquireReference generation = .propose new ()) :
    Transition debug s t (s.afterAcquire t generation outcome) := by
  cases outcome with
  | refused error => exact .turn .idle id (by simp) (by simp)
  | panicked reason => exact .acquirePanic generation reason (panicked reason rfl)
  | retry proposal => exact .turn (.acquiring generation proposal) id (by simp) (by simp)
  | committed new result => exact .acquired generation new (committed new rfl)

theorem afterRelease_transition {generation : Nat} {outcome : Outcome (Lifecycle.releaseReference generation)}
    (held : (t, generation) ∈ s.refs)
    (refused : ∀ error, outcome = .refused error → s.lifecycle.releaseReference generation = .refuse error)
    (panicked : ∀ reason, outcome = .panicked reason → s.lifecycle.releaseReference generation = .panic reason)
    (committed : ∀ new last, outcome = .committed new last →
      s.lifecycle.releaseReference generation = .propose new last) :
    Transition debug s t (s.afterRelease t generation outcome) := by
  cases outcome with
  | refused error => exact .releaseRefused generation error held (refused error rfl)
  | panicked reason => exact .releasePanic generation reason held (panicked reason rfl)
  | retry proposal =>
    apply Transition.turn (.releasing generation proposal) id (by simp)
    intro generation' proposal' same
    cases same
    exact held
  | committed new last => exact .released generation new last held (committed new last rfl)

theorem afterMark_transition {generation : Nat} {outcome : Outcome (Lifecycle.markUnallocated generation)}
    (panicked : ∀ reason, outcome = .panicked reason → s.lifecycle.markUnallocated generation = .panic reason)
    (committed : ∀ new unallocated, outcome = .committed new unallocated →
      s.lifecycle.markUnallocated generation = .propose new unallocated) :
    Transition debug s t (s.afterMark t generation outcome) := by
  cases outcome with
  | refused error => exact .turn .idle id (by simp) (by simp)
  | panicked reason => exact absurd (panicked reason rfl) Lifecycle.markUnallocated_ne_panic
  | retry proposal => exact .turn (.marking generation proposal) id (by simp) (by simp)
  | committed new unallocated => exact .marked generation new unallocated (committed new unallocated rfl)

theorem advance_transition {spurious : Bool}
    (releasing : ∀ generation proposal, s.pc t = .releasing generation proposal → (t, generation) ∈ s.refs)
    (advanced : s.advance debug t spurious = some s') : Transition debug s t s' := by
  unfold System.advance at advanced
  cases place : s.pc t with
  | idle => simp [place] at advanced
  | acquiring generation proposal =>
    cases spurious <;> simp only [place, Option.some.injEq, if_true, Bool.false_eq_true, if_false] at advanced
    · subst advanced
      exact afterAcquire_transition debug (fun _ => exchange_panicked) fun _ => exchange_committed
    · cases advanced
  | releasing generation proposal =>
    cases spurious <;> simp only [place, Option.some.injEq, if_true, Bool.false_eq_true, if_false] at advanced
    · subst advanced
      exact afterRelease_transition debug (releasing generation proposal place) (fun _ => exchange_refused)
        (fun _ => exchange_panicked) fun _ _ => exchange_committed
    · cases advanced
  | marking generation proposal =>
    simp only [place, Option.some.injEq] at advanced
    subst advanced
    exact afterMark_transition debug (fun _ => exchange_panicked) fun _ _ => exchange_committed
  | clearing =>
    simp only [place] at advanced
    cases cleared : s.lifecycle.clear debug with
    | ok new =>
      simp only [cleared, Option.some.injEq] at advanced
      subst advanced
      exact .clearLoaded new place cleared
    | error reason =>
      simp only [cleared, Option.some.injEq] at advanced
      subst advanced
      exact .clearPanic reason place cleared
  | storing new =>
    simp only [place, Option.some.injEq] at advanced
    subst advanced
    exact .stored new place
  | dropping =>
    simp only [place, Option.some.injEq] at advanced
    subst advanced
    exact .dropped place
  | allocating new =>
    simp only [place, Option.some.injEq] at advanced
    subst advanced
    exact .allocated new place
  | panicked reason => simp [place] at advanced

theorem step_transition {action : Action}
    (releasing : ∀ generation proposal, s.pc t = .releasing generation proposal → (t, generation) ∈ s.refs)
    (stepped : s.step debug t action = some s') : Transition debug s t s' := by
  cases action with
  | advance spurious => exact advance_transition debug releasing stepped
  | acquireReference generation =>
    simp only [System.step] at stepped
    split at stepped
    · cases stepped
      exact afterAcquire_transition debug (fun _ => consider_panicked)
        fun _ committed => absurd committed consider_ne_committed
    · cases stepped
  | releaseReference generation =>
    simp only [System.step] at stepped
    split at stepped
    · split at stepped
      · rename_i held
        cases stepped
        exact afterRelease_transition debug held (fun _ => consider_refused) (fun _ => consider_panicked)
          fun _ _ committed => absurd committed consider_ne_committed
      · cases stepped
    · cases stepped
  | markUnallocated generation =>
    simp only [System.step] at stepped
    split at stepped
    · cases stepped
      exact afterMark_transition debug (fun _ => consider_panicked)
        fun _ _ committed => absurd committed consider_ne_committed
    · cases stepped
  | allocate =>
    simp only [System.step] at stepped
    split at stepped
    · split at stepped
      · rename_i vacant
        cases loaded : s.lifecycle.allocate debug with
        | ok new =>
          simp only [loaded, Option.some.injEq] at stepped
          subst stepped
          exact .allocLoaded new vacant loaded
        | error reason =>
          simp only [loaded, Option.some.injEq] at stepped
          subst stepped
          exact .allocPanic reason vacant loaded
      · cases stepped
    · cases stepped

end Inversion

end PlatyposSlab.SlotMachine
