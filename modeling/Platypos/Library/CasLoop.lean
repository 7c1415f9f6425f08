import Mathlib.Logic.Basic

namespace CasLoop

universe u v w x

variable {σ : Type u} {ε : Type v} {π : Type w} {ρ : Type x}

/-- What a compare-and-swap loop makes of a value it has loaded: give up, panic, or try to replace it. -/
inductive Attempt (σ : Type u) (ε : Type v) (π : Type w) (ρ : Type x) where
  | refuse (error : ε)
  | panic (reason : π)
  | propose (new : σ) (result : ρ)
  deriving DecidableEq

structure Proposal (attempt : σ → Attempt σ ε π ρ) where
  prev : σ
  new : σ
  result : ρ
  proposed : attempt prev = .propose new result

inductive Outcome (attempt : σ → Attempt σ ε π ρ) where
  | refused (error : ε)
  | panicked (reason : π)
  | retry (proposal : Proposal attempt)
  | committed (new : σ) (result : ρ)

variable (attempt : σ → Attempt σ ε π ρ)

def consider (loaded : σ) : Outcome attempt :=
  match proposed : attempt loaded with
  | .refuse error => .refused error
  | .panic reason => .panicked reason
  | .propose new result => .retry ⟨loaded, new, result, proposed⟩

/-- One exchange. It may fail although the value is the expected one (`spurious`), and a failed exchange hands
    the actual value to the next round. -/
def exchange [DecidableEq σ] (proposal : Proposal attempt) (spurious : Bool) (actual : σ) : Outcome attempt :=
  if spurious = false ∧ actual = proposal.prev then .committed proposal.new proposal.result
  else consider attempt actual

variable {attempt}

theorem consider_refused {loaded : σ} {error : ε} (outcome : consider attempt loaded = .refused error) :
    attempt loaded = .refuse error := by
  unfold consider at outcome
  split at outcome
  · cases outcome
    assumption
  · cases outcome
  · cases outcome

theorem consider_panicked {loaded : σ} {reason : π} (outcome : consider attempt loaded = .panicked reason) :
    attempt loaded = .panic reason := by
  unfold consider at outcome
  split at outcome
  · cases outcome
  · cases outcome
    assumption
  · cases outcome

theorem consider_ne_committed {loaded new : σ} {result : ρ} :
    consider attempt loaded ≠ .committed new result := by
  intro outcome
  unfold consider at outcome
  split at outcome <;> cases outcome

theorem consider_propose {loaded new : σ} {result : ρ} (proposed : attempt loaded = .propose new result) :
    consider attempt loaded = .retry ⟨loaded, new, result, proposed⟩ := by
  unfold consider
  split <;> rename_i same <;> cases proposed.symm.trans same
  rfl

theorem consider_panic {loaded : σ} {reason : π} (panics : attempt loaded = .panic reason) :
    consider attempt loaded = .panicked reason := by
  unfold consider
  split <;> rename_i same <;> cases panics.symm.trans same
  rfl

/-- The outcome is one that the current value allows. -/
def Outcome.Of (actual : σ) : Outcome attempt → Prop
  | .refused error => attempt actual = .refuse error
  | .panicked reason => attempt actual = .panic reason
  | .retry _ => True
  | .committed new result => attempt actual = .propose new result

theorem consider_of (actual : σ) : (consider attempt actual).Of actual := by
  cases outcome : consider attempt actual with
  | refused error => exact consider_refused outcome
  | panicked reason => exact consider_panicked outcome
  | retry proposal => trivial
  | committed new result => exact absurd outcome consider_ne_committed

variable [DecidableEq σ]

theorem exchange_committed {proposal : Proposal attempt} {spurious : Bool} {actual new : σ} {result : ρ}
    (outcome : exchange attempt proposal spurious actual = .committed new result) :
    attempt actual = .propose new result := by
  unfold exchange at outcome
  split at outcome
  · rename_i same
    cases outcome
    rw [same.2]
    exact proposal.proposed
  · exact absurd outcome consider_ne_committed

theorem exchange_refused {proposal : Proposal attempt} {spurious : Bool} {actual : σ} {error : ε}
    (outcome : exchange attempt proposal spurious actual = .refused error) : attempt actual = .refuse error := by
  unfold exchange at outcome
  split at outcome
  · cases outcome
  · exact consider_refused outcome

theorem exchange_panicked {proposal : Proposal attempt} {spurious : Bool} {actual : σ} {reason : π}
    (outcome : exchange attempt proposal spurious actual = .panicked reason) : attempt actual = .panic reason := by
  unfold exchange at outcome
  split at outcome
  · cases outcome
  · exact consider_panicked outcome

theorem exchange_unchanged (proposal : Proposal attempt) :
    exchange attempt proposal false proposal.prev = .committed proposal.new proposal.result :=
  if_pos ⟨rfl, rfl⟩

theorem exchange_of (proposal : Proposal attempt) (spurious : Bool) (actual : σ) :
    (exchange attempt proposal spurious actual).Of actual := by
  cases outcome : exchange attempt proposal spurious actual with
  | refused error => exact exchange_refused outcome
  | panicked reason => exact exchange_panicked outcome
  | retry proposal => trivial
  | committed new result => exact exchange_committed outcome

end CasLoop
