import Mathlib.Data.Finset.Card
import Platypos.Ktrace.Handles

namespace Platypos.Ktrace.Handles

open CasLoop

open PlatyposSlab (Idx Lifecycle Slab Place Shelves)

variable {V P T : Type} {span : Idx}

/-- How far the span has come on its way out. -/
inductive Stage (T : Type) where
  | live
  | closing (t : T)
  | removing (t : T)
  | zombie (closer : T)
  | returning (t : T) (resume : Resume) (closer : T)
  | free (closer : T)

/-- The part of a thread in the removal. -/
inductive Duty where
  | none
  | closing
  | removing
  | returning (resume : Resume)
  | failed
  deriving DecidableEq

def After.duty : After → Duty
  | .cloned => .none
  | .closing references => if references = 1 then .closing else .none

def Pc.duty : Pc span → Duty
  | .dropping after => after.duty
  | .releasing after _ => after.duty
  | .removing => .removing
  | .marking _ => .removing
  | .clearLoad resume => .returning resume
  | .clearStore resume _ => .returning resume
  | .clearTake resume => .returning resume
  | .pushLocal resume => .returning resume
  | .pushTag resume => .returning resume
  | .pushLoad resume _ => .returning resume
  | .pushWrite resume _ _ => .returning resume
  | .pushSwap resume _ _ => .returning resume
  | .panicked _ => .failed
  | _ => .none

def Stage.duty [DecidableEq T] (stage : Stage T) (t : T) : Duty :=
  match stage with
  | .closing c => if t = c then .closing else .none
  | .removing c => if t = c then .removing else .none
  | .returning u resume _ => if t = u then .returning resume else .none
  | _ => .none

def Duty.Suits (stage : Stage T) (t : T) : Duty → Prop
  | .none => True
  | .closing => stage = .closing t
  | .removing => stage = .removing t
  | .returning resume => ∃ c, stage = .returning t resume c
  | .failed => False

theorem Stage.suits_duty [DecidableEq T] (stage : Stage T) (t : T) : (stage.duty t).Suits stage t := by
  cases stage with
  | live | zombie c | free c => trivial
  | closing c | removing c =>
    simp only [Stage.duty]
    split
    · rename_i same
      rw [same]
      rfl
    · trivial
  | returning u resume c =>
    simp only [Stage.duty]
    split
    · rename_i same
      exact ⟨c, by rw [same]⟩
    · trivial

def Pc.HoldsRef : Pc span → Prop
  | .counting _ => True
  | .dropping _ => True
  | .releasing _ _ => True
  | _ => False

/-- The call has not counted yet. -/
def Pc.Early : Pc span → Prop
  | .getting _ _ => True
  | .counting _ => True
  | _ => False

theorem After.duty_ne_returning (after : After) (resume : Resume) : after.duty ≠ .returning resume := by
  cases after with
  | cloned => exact nofun
  | closing references =>
    intro returning
    simp only [After.duty] at returning
    split at returning <;> cases returning

theorem Pc.apart_of_returning {b : Pc span} {resume : Resume} (duty : b.duty = .returning resume) :
    ¬ b.HoldsRef ∧ ¬ b.Early := by
  cases b with
  | dropping after => exact absurd duty (after.duty_ne_returning resume)
  | releasing after proposal => exact absurd duty (after.duty_ne_returning resume)
  | getting call proposal | counting call => cases duty
  | _ => exact ⟨id, id⟩

/-- The calls of `try_close` that returned true. -/
def Trace.last (trace : Trace V T) : List T :=
  trace.closed.filterMap fun
    | (t, _, true) => some t
    | (_, _, false) => none

/-- A `try_close` has returned true exactly if it observed one handle. -/
def Trace.Honest (trace : Trace V T) : Prop := ∀ e ∈ trace.closed, (e.2.2 = true ↔ e.2.1 = some 1)

structure Trace.Shows (trace : Trace V T) (removing : List T) (removed : List (T × Bool)) (last : List T)
    (dropped : List V) : Prop where
  removing : trace.removing = removing
  removed : trace.removed = removed
  last : trace.last = last
  dropped : trace.dropped = dropped

/-- What holds while the slot is being returned. -/
def Ready (value : V) (s : System V P T span) : Pc span → Prop
  | .clearLoad _ => s.slab.contents span.index = some value ∧ s.trace.dropped = []
  | .clearStore _ new => (new.state = .unallocated ∧ new.refcount = 0 ∧ new.generation = span.generation) ∧
      s.slab.contents span.index = some value ∧ s.trace.dropped = []
  | .clearTake _ => s.lifecycle.state = .unallocated ∧ s.slab.contents span.index = some value ∧ s.trace.dropped = []
  | .pushSwap _ _ oldHead => s.slab.next span.index = oldHead ∧ s.lifecycle.state = .unallocated ∧
      s.slab.contents span.index = none ∧ s.trace.dropped = [value]
  | _ => s.lifecycle.state = .unallocated ∧ s.slab.contents span.index = none ∧ s.trace.dropped = [value]

/-- The last closer has not returned yet if the thread is its own, and has otherwise. -/
def Concluded (trace : Trace V T) (t closer : T) : Resume → Prop
  | .removed => closer = t ∧ trace.removed = [] ∧ trace.last = []
  | .dropped after => after.duty = .none ∧ trace.removed = [(closer, true)] ∧ trace.last = [closer]

def Facts (value : V) (s : System V P T span) : Stage T → Prop
  | .live => s.handles ≠ 0 ∧ s.lifecycle.state = .allocated ∧ s.slab.contents span.index = some value ∧
      s.trace.Shows [] [] [] []
  | .closing _ => s.handles = 0 ∧ s.lifecycle.state = .allocated ∧ s.slab.contents span.index = some value ∧
      s.trace.Shows [] [] [] []
  | .removing t => s.handles = 0 ∧ s.lifecycle.state = .allocated ∧ s.slab.contents span.index = some value ∧
      s.trace.Shows [t] [] [] []
  | .zombie c => s.handles = 0 ∧ s.lifecycle.state = .zombie ∧ 0 < s.lifecycle.refcount ∧
      s.slab.contents span.index = some value ∧ s.trace.Shows [c] [(c, true)] [c] []
  | .returning t resume c => s.handles = 0 ∧ s.lifecycle.state ≠ .allocated ∧ s.lifecycle.refcount = 0 ∧
      Ready value s (s.pc t) ∧ s.trace.removing = [c] ∧ Concluded s.trace t c resume
  | .free c => s.handles = 0 ∧ s.lifecycle.state = .unallocated ∧ s.lifecycle.refcount = 0 ∧
      s.slab.contents span.index = none ∧ s.trace.Shows [c] [(c, true)] [c] [value]

theorem Facts.no_handles {value : V} {s : System V P T span} {stage : Stage T} (facts : Facts value s stage)
    (later : stage ≠ .live) : s.handles = 0 := by
  cases stage with
  | live => exact absurd rfl later
  | closing t | removing t | zombie c | returning t resume c | free c => exact facts.1

section

variable [DecidableEq T]

/-- What holds of one thread. -/
structure Thread (stage : Stage T) (refs : Finset T) (handles : Multiset T) (t : T) (pc : Pc span) : Prop where
  duty : pc.duty = stage.duty t
  ref : t ∈ refs ↔ pc.HoldsRef
  handle : pc.Early → t ∈ handles

structure Invariant (value : V) (s : System V P T span) (stage : Stage T) (refs : Finset T) (place : Nat → Place P)
    (cells : List Nat) (locals : P → List Nat) : Prop where
  fits : s.slab.size < 2^18
  inside : span.index < s.slab.size
  shelves : Shelves s.slab.size s.slab.next s.slab.head s.slab.heads place cells locals
  listed : (place span.index).Listed ↔ ∃ c, stage = .free c
  generation : s.lifecycle.generation = span.generation
  refcount : s.lifecycle.refcount = refs.card
  count : s.references.toNat = s.handles.card
  threads : ∀ t, Thread stage refs s.handles t (s.pc t)
  facts : Facts value s stage
  clean : s.trace.refused = []
  honest : s.trace.Honest

def Coherent (value : V) (s : System V P T span) : Prop :=
  ∃ stage refs place cells locals, Invariant value s stage refs place cells locals

section Reading

variable {value : V} {s : System V P T span} {stage : Stage T} {refs : Finset T} {place : Nat → Place P}
  {cells : List Nat} {locals : P → List Nat} {t : T} (inv : Invariant value s stage refs place cells locals)

include inv

theorem Invariant.live_of_mem (held : t ∈ s.handles) : stage = .live := by
  by_contra later
  rw [inv.facts.no_handles later] at held
  exact Multiset.notMem_zero t held

theorem Invariant.suits : (s.pc t).duty.Suits stage t := by
  rw [(inv.threads t).duty]
  exact stage.suits_duty t

theorem Invariant.calm (reason : PlatyposSlab.Panic) : s.pc t ≠ .panicked reason := by
  intro panicked
  have suits := inv.suits (t := t)
  rw [panicked] at suits
  exact suits

/-- A reference is held only before the slot is on its way back. -/
theorem Invariant.referenced (held : (s.pc t).HoldsRef) : 0 < s.lifecycle.refcount ∧ s.lifecycle.state ≠ .unallocated := by
  have positive : 0 < s.lifecycle.refcount := by
    rw [inv.refcount]
    exact Finset.card_pos.mpr ⟨t, (inv.threads t).ref.mpr held⟩
  refine ⟨positive, ?_⟩
  have facts := inv.facts
  cases stage with
  | live | closing t' | removing t' | zombie c => simp [facts.2.1]
  | returning t' resume c | free c => exact absurd facts.2.2.1 (Nat.ne_of_gt positive)

end Reading

end

end Platypos.Ktrace.Handles
