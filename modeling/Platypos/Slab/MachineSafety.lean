import Mathlib.Data.Fintype.Basic
import Platypos.Slab.MachineExchanges
import Platypos.Slab.MapView

namespace PlatyposSlab.Machine

open CasLoop TaggedStack Chain

variable {V P : Type}

def Pc.Inserting (i : Nat) : Pc V → Prop
  | .allocLoad _ index => index = i
  | .allocStore _ index _ => index = i
  | .allocFill _ index => index = i
  | _ => False

/-- A slot that an insert has just obtained is free, and no other insert is busy with it. -/
def System.Exclusive (s : System V P) : Prop :=
  ∀ p value i, s.pc p = .allocLoad value i →
    (s.slab.lifecycle i).state = .unallocated ∧ ∀ q, q ≠ p → ¬ (s.pc q).Inserting i

theorem Invariant.exclusive {s : System V P} {place : Nat → Place P} {cells : List Nat} {locals : P → List Nat}
    (inv : Invariant s place cells locals) : s.Exclusive := by
  intro p value i obtained
  have holding : (s.pc p).holding = some i := by rw [obtained]; rfl
  have suits := inv.suits holding
  rw [obtained] at suits
  refine ⟨suits.1, ?_⟩
  intro q differ inserting
  apply inv.held_ne holding differ
  cases pc : s.pc q <;> simp_all [Pc.Inserting, Pc.holding]

theorem new_invariant {size : Nat} (positive : 0 < size) {s : System V P} (constructed : System.new size = .ok s) :
    ∃ place cells locals, Invariant s place cells locals := by
  unfold System.new Slab.new at constructed
  split at constructed
  · rename_i fits
    cases constructed
    have filed : Filed _ _ _ (Slab.fresh size : Slab V P) := fresh_filed positive fits
    refine ⟨_, _, _, fits, filed.shelves, fun p => .idle .., ?_, ?_, ?_⟩
    · intro i _
      exact ⟨rfl, rfl⟩
    · intro i
      exact ⟨rfl, by simp [refsAt]⟩
    · constructor
      · intro x member
        rw [fresh_untagged fits size 0 0 (by omega) (by rw [if_neg (by omega)]) x member]
        omega
      all_goals simp [Pc.phase, Phase.seen]
  · cases constructed

@[simp] theorem setLifecycle_pc (s : System V P) (i : Nat) (l : Lifecycle) : (s.setLifecycle i l).pc = s.pc := rfl

/-- Whether an insert is about to write into a slot is seen from where each processor stands. -/
instance System.decidableFilling [Fintype P] (s : System V P) (idx : Idx) : Decidable (∀ q value,
    s.pc q = .allocFill value idx.index → (s.slab.lifecycle idx.index).generation ≠ idx.generation) := by
  have (q : P) : Decidable (∀ value,
      s.pc q = .allocFill value idx.index → (s.slab.lifecycle idx.index).generation ≠ idx.generation) := by
    cases s.pc q with
    | allocFill value index =>
      exact decidable_of_iff (index = idx.index → (s.slab.lifecycle idx.index).generation ≠ idx.generation) (by simp)
    | _ => exact .isTrue (by simp)
  infer_instance

variable [DecidableEq P]

namespace System

/-- The step does not install the successor that a pop read before its untagged head was popped and pushed again,
    and does not remove an entry whose insert has not returned yet. -/
def Safe (s : System V P) (p : P) : Prop :=
  match s.pc p with
  | .popSwap _ oldHead newHead =>
    Entry.tag oldHead = 0 → s.slab.head = oldHead → newHead = s.slab.next (Entry.index oldHead)
  | .mark idx _ =>
    ∀ q value, s.pc q = .allocFill value idx.index → (s.slab.lifecycle idx.index).generation ≠ idx.generation
  | _ => True

def SafeRun (debug : Bool) : System V P → List (P × Action V) → Prop
  | _, [] => True
  | s, (p, action) :: schedule => s.Safe p ∧ ∀ s', s.step debug p action = some s' → SafeRun debug s' schedule

section Decidable

variable [Fintype P]

instance (s : System V P) (p : P) : Decidable (s.Safe p) := by
  unfold Safe
  split <;> infer_instance

instance decidableSafeRun (debug : Bool) : ∀ (s : System V P) schedule, Decidable (s.SafeRun debug schedule)
  | _, [] => .isTrue trivial
  | s, (p, action) :: schedule =>
    match stepped : s.step debug p action with
    | none => decidable_of_iff (s.Safe p) (by simp [SafeRun, stepped])
    | some s' =>
      have := decidableSafeRun debug s' schedule
      decidable_of_iff (s.Safe p ∧ s'.SafeRun debug schedule) (by simp [SafeRun, stepped])

end Decidable

end System

section Step

variable {debug : Bool} {s s' : System V P} {place : Nat → Place P} {cells : List Nat} {locals : P → List Nat} {p : P}
  (inv : Invariant s place cells locals)

include inv

theorem Invariant.loadHead {value : V} (pc : s.pc p = .popLoad value) (more : s.slab.head ≠ EMPTY) :
    Invariant (s.setPc p (.popRead value s.slab.head)) place cells locals := by
  apply inv.turn (by rw [pc]; rfl) (by simp [pc]) rfl
  · constructor <;> simp [Pc.holding, Pc.target, Pc.phase, Phase.seen, more]
  · simp [Pc.phase, Phase.seen]
  · simp [Pc.phase]

theorem Invariant.readNext {value : V} {old : Nat} (pc : s.pc p = .popRead value old) :
    Invariant (s.setPc p (.popSwap value old (s.slab.next (Entry.index old)))) place cells locals := by
  have more : old ≠ EMPTY := (inv.placed p).ends old (by rw [pc]; rfl)
  apply inv.turn (by rw [pc]; rfl) (by simp [pc]) rfl
  · constructor <;> simp [Pc.holding, Pc.target, Pc.phase, Phase.seen, more]
  · simp [pc, Pc.phase, Phase.seen]
  · intro old' new' same
    cases same
    rfl

theorem Invariant.swapHead {value : V} {old new : Nat} (pc : s.pc p = .popSwap value old new) (safe : s.Safe p)
    (top : s.slab.head = old) :
    ∃ place' cells', Invariant ({ s with slab := { s.slab with head := new } }.setPc p
      (.allocLoad value (Entry.index old))) place' cells' locals := by
  have more : old ≠ EMPTY := (inv.placed p).ends old (by rw [pc]; rfl)
  apply inv.takeGlobal (by rw [pc]; rfl) (by simp [pc]) value top more
  by_cases untagged : Entry.tag old = 0
  · simp only [System.Safe, pc] at safe
    exact safe untagged top
  · apply inv.tagged.current p old new (by rw [Function.comp_apply, pc]; rfl) (by omega)
    rw [← top]
    exact inv.head_mem (top ▸ more)

theorem Invariant.proceed {i : Nat} {b : Pc V} (before : (s.pc p).holding = some i) (after : b.holding = some i)
    {contents : Nat → Option V} {processor : Nat → Option P} (suits : b.Suits (s.slab.lifecycle i))
    (phase : b.phase = (s.pc p).phase) (unwritten : ∀ i t old, b ≠ .pushSwap i t old) :
    Invariant ({ s with slab := { s.slab with contents := contents, processor := processor } }.setPc p b)
      place cells locals :=
  inv.hold before after suits (inv.counted i) rfl rfl rfl rfl (Function.update_eq_self ..).symm unwritten
    (inv.same_phase phase)

theorem Invariant.store {i : Nat} {b : Pc V} {new : Lifecycle} (before : (s.pc p).holding = some i)
    (after : b.holding = some i) (suits : b.Suits new) (none : (s.slab.lifecycle i).refcount = 0)
    (none' : new.refcount = 0) (phase : b.phase = .away) :
    Invariant ((s.setLifecycle i new).setPc p b) place cells locals := by
  have counted : new.Counted (refsAt s.refs i) := by
    rw [(inv.counted i).eq_zero none]
    exact ⟨none', by simp⟩
  refine inv.hold before after suits counted rfl rfl rfl rfl rfl ?_ ?_
  · intro i t old same
    rw [same] at phase
    cases phase
  · rw [phase]
    exact inv.tagged.leave

theorem Invariant.drawTag {i : Nat} (pc : s.pc p = .pushTag i) (room : s.slab.tag < 2^46) :
    Invariant ({ s with slab := { s.slab with tag := (s.slab.tag + 1) % 2^64 } }.setPc p (.pushLoad i s.slab.tag))
      place cells locals := by
  have before : (s.pc p).holding = some i := by rw [pc]; rfl
  have inside := (inv.held before).1
  have fits := inv.fits
  have suits := inv.suits before
  rw [pc] at suits
  refine inv.hold before rfl suits (inv.counted i) rfl rfl rfl rfl (Function.update_eq_self ..).symm (by simp) ?_
  have count : (s.slab.tag + 1) % 2^64 = s.slab.tag + 1 := Nat.mod_eq_of_lt (by omega)
  simp only [count]
  exact inv.tagged.draw (Entry.tag_pack (by omega) _)

theorem Invariant.advance {spurious : Bool} (safe : s.Safe p) (advanced : s.advance debug p spurious = some s')
    (room : ∀ q, s'.pc q ≠ .panicked .tagOverflow) :
    ∃ place' cells' locals', Invariant s' place' cells' locals' := by
  unfold System.advance at advanced
  cases pc : s.pc p with
  | idle => simp [pc] at advanced
  | popLoad value =>
    simp only [pc] at advanced
    split at advanced
    · cases advanced
      exact ⟨_, _, _, inv.rest (by rw [pc]; rfl) (by simp [pc])⟩
    · rename_i more
      cases advanced
      exact ⟨_, _, _, inv.loadHead pc more⟩
  | popRead value old =>
    simp only [pc] at advanced
    split at advanced
    · cases advanced
      exact ⟨_, _, _, inv.readNext pc⟩
    · cases advanced
      exact ⟨_, _, _, inv.panic _⟩
  | popSwap value old new =>
    simp only [pc] at advanced
    split at advanced
    · rename_i top
      cases advanced
      obtain ⟨place', cells', kept⟩ := inv.swapHead pc safe top
      exact ⟨_, _, _, kept⟩
    · cases advanced
      exact ⟨_, _, _, inv.aim (by rw [pc]; rfl) (by simp [pc]) rfl rfl (by simp [Pc.target]) (by simp)⟩
  | allocLoad value i =>
    have before : (s.pc p).holding = some i := by rw [pc]; rfl
    have suits := inv.suits before
    simp only [pc, Pc.Suits] at advanced suits
    split at advanced
    · rename_i new allocated
      cases advanced
      obtain ⟨_, refcount, state⟩ := Lifecycle.allocate_ok allocated
      exact ⟨_, _, _, inv.proceed before rfl ⟨suits.1, suits.2, state, refcount.trans suits.2⟩ (by rw [pc]; rfl) (by simp)⟩
    · cases advanced
      exact ⟨_, _, _, inv.panic _⟩
  | allocStore value i new =>
    have before : (s.pc p).holding = some i := by rw [pc]; rfl
    have suits := inv.suits before
    simp only [pc, Pc.Suits, Option.some.injEq] at advanced suits
    subst advanced
    exact ⟨_, _, _, inv.store before rfl suits.2.2.1 suits.2.1 suits.2.2.2 rfl⟩
  | allocFill value i =>
    simp only [pc, Option.some.injEq] at advanced
    subst advanced
    exact ⟨_, _, _, inv.fill (by rw [pc]; rfl) pc⟩
  | acquire idx proposal =>
    have inside := (inv.placed p).target idx.index (by rw [pc]; rfl)
    cases spurious <;> simp only [pc, Option.some.injEq, if_true, Bool.false_eq_true, if_false] at advanced
    · subst advanced
      exact ⟨_, _, _, inv.afterAcquire (by rw [pc]; rfl) (by simp [pc]) inside fun _ => exchange_committed⟩
    · cases advanced
  | release idx proposal =>
    have inside := (inv.placed p).target idx.index (by rw [pc]; rfl)
    have held := (inv.placed p).dropping idx proposal pc
    cases spurious <;> simp only [pc, Option.some.injEq, if_true, Bool.false_eq_true, if_false] at advanced
    · subst advanced
      obtain ⟨place', kept⟩ :=
        inv.afterRelease (by rw [pc]; rfl) (by simp [pc]) inside held fun _ _ => exchange_committed
      exact ⟨_, _, _, kept⟩
    · cases advanced
  | mark idx proposal =>
    have inside := (inv.placed p).target idx.index (by rw [pc]; rfl)
    simp only [System.Safe, pc, Option.some.injEq] at advanced safe
    subst advanced
    obtain ⟨place', kept⟩ :=
      inv.afterMark (by rw [pc]; rfl) (by simp [pc]) inside (fun _ _ _ => safe) fun _ _ => exchange_committed
    exact ⟨_, _, _, kept⟩
  | clearLoad i =>
    have before : (s.pc p).holding = some i := by rw [pc]; rfl
    have suits := inv.suits before
    simp only [pc, Pc.Suits] at advanced suits
    rw [Lifecycle.clear_eq suits.2] at advanced
    cases advanced
    exact ⟨_, _, _, inv.proceed before rfl ⟨suits.1, suits.2, rfl, suits.2⟩ (by rw [pc]; rfl) (by simp)⟩
  | clearStore i new =>
    have before : (s.pc p).holding = some i := by rw [pc]; rfl
    have suits := inv.suits before
    simp only [pc, Pc.Suits, Option.some.injEq] at advanced suits
    subst advanced
    exact ⟨_, _, _, inv.store before rfl suits.2.2 suits.2.1 suits.2.2.2 rfl⟩
  | clearTake i =>
    have before : (s.pc p).holding = some i := by rw [pc]; rfl
    have suits := inv.suits before
    simp only [pc, Pc.Suits] at advanced suits
    split at advanced
    · cases advanced
      exact ⟨_, _, _, inv.panic _⟩
    · cases advanced
      split
      · exact ⟨_, _, _, inv.proceed before rfl suits (by rw [pc]; rfl) (by simp)⟩
      · exact ⟨_, _, _, inv.proceed before rfl suits (by rw [pc]; rfl) (by simp)⟩
  | pushLocal i =>
    simp only [pc] at advanced
    split at advanced
    · rename_i slab pushed
      cases advanced
      obtain ⟨place', locals', kept⟩ := inv.pushLocal (by rw [pc]; rfl) pc pushed
      exact ⟨_, _, _, kept⟩
    · cases advanced
      exact ⟨_, _, _, inv.panic _⟩
  | pushTag i =>
    have inside := (inv.held (p := p) (i := i) (by rw [pc]; rfl)).1
    have fits := inv.fits
    simp only [pc, if_neg (show ¬ 2^18 ≤ i by omega), Option.some.injEq] at advanced
    subst advanced
    split at room
    · exact absurd (Function.update_self ..) (room p)
    · rename_i more
      rw [if_neg more]
      exact ⟨_, _, _, inv.drawTag pc (Nat.lt_of_not_le more)⟩
  | pushLoad i t =>
    have before : (s.pc p).holding = some i := by rw [pc]; rfl
    have suits := inv.suits before
    simp only [pc, Pc.Suits, Option.some.injEq] at advanced suits
    subst advanced
    exact ⟨_, _, _, inv.proceed before rfl suits (by rw [pc]; rfl) (by simp)⟩
  | pushWrite i t old =>
    simp only [pc] at advanced
    split at advanced
    · cases advanced
      exact ⟨_, _, _, inv.write (by rw [pc]; rfl) pc⟩
    · cases advanced
      exact ⟨_, _, _, inv.panic _⟩
  | pushSwap i t old =>
    have before : (s.pc p).holding = some i := by rw [pc]; rfl
    have suits := inv.suits before
    simp only [pc, Pc.Suits] at advanced suits
    split at advanced
    · rename_i top
      cases advanced
      exact ⟨_, _, _, inv.pushGlobal before pc top⟩
    · cases advanced
      exact ⟨_, _, _, inv.proceed before rfl suits (by rw [pc]; rfl) (by simp)⟩
  | panicked reason => simp [pc] at advanced

theorem Invariant.step {action : Action V} (safe : s.Safe p) (stepped : s.step debug p action = some s')
    (room : ∀ q, s'.pc q ≠ .panicked .tagOverflow) :
    ∃ place' cells' locals', Invariant s' place' cells' locals' := by
  cases action with
  | advance spurious => exact inv.advance safe stepped room
  | insert value =>
    cases pc : s.pc p <;> simp only [System.step, pc, reduceCtorEq] at stepped
    split at stepped
    · rename_i slab popped
      cases stepped
      obtain ⟨place', locals', kept⟩ := inv.takeLocal (by rw [pc]; rfl) (by simp [pc]) value popped
      exact ⟨_, _, _, kept⟩
    · cases stepped
      exact ⟨_, _, _, inv.aim (by rw [pc]; rfl) (by simp [pc]) rfl rfl (by simp [Pc.target]) (by simp)⟩
    · cases stepped
      exact ⟨_, _, _, inv.panic _⟩
  | get idx =>
    cases pc : s.pc p <;> simp only [System.step, pc, reduceCtorEq] at stepped
    split at stepped
    · rename_i inside
      cases stepped
      exact ⟨_, _, _, inv.afterAcquire (by rw [pc]; rfl) (by simp [pc]) inside
        fun _ committed => absurd committed consider_ne_committed⟩
    · cases stepped
      exact ⟨_, _, _, inv⟩
  | remove idx =>
    cases pc : s.pc p <;> simp only [System.step, pc, reduceCtorEq] at stepped
    split at stepped
    · rename_i inside
      cases stepped
      obtain ⟨place', kept⟩ := inv.afterMark (by rw [pc]; rfl) (by simp [pc]) inside
        (fun _ _ committed => absurd committed consider_ne_committed)
        fun _ _ committed => absurd committed consider_ne_committed
      exact ⟨_, _, _, kept⟩
    · cases stepped
      exact ⟨_, _, _, inv⟩
  | drop idx =>
    cases pc : s.pc p <;> simp only [System.step, pc, reduceCtorEq] at stepped
    split at stepped
    · rename_i held
      split at stepped
      · rename_i inside
        cases stepped
        obtain ⟨place', kept⟩ := inv.afterRelease (by rw [pc]; rfl) (by simp [pc]) inside held
          fun _ _ committed => absurd committed consider_ne_committed
        exact ⟨_, _, _, kept⟩
      · cases stepped
        exact ⟨_, _, _, inv.panic _⟩
    · cases stepped

end Step

section Panics

variable {debug : Bool} {s s' : System V P} {p q : P} {reason : Panic}

@[simp] theorem setPc_other (s : System V P) (b : Pc V) (differ : q ≠ p) : (s.setPc p b).pc q = s.pc q :=
  Function.update_of_ne differ ..

@[simp] theorem afterAcquire_other {idx : Idx} (outcome : Outcome (Lifecycle.acquireReference idx.generation))
    (differ : q ≠ p) : (s.afterAcquire p idx outcome).pc q = s.pc q := by
  cases outcome <;> exact setPc_other _ _ differ

@[simp] theorem afterRelease_other {idx : Idx} (outcome : Outcome (Lifecycle.releaseReference idx.generation))
    (differ : q ≠ p) : (s.afterRelease p idx outcome).pc q = s.pc q := by
  cases outcome <;> exact setPc_other _ _ differ

@[simp] theorem afterMark_other {idx : Idx} (outcome : Outcome (Lifecycle.markUnallocated idx.generation))
    (differ : q ≠ p) : (s.afterMark p idx outcome).pc q = s.pc q := by
  cases outcome <;> exact setPc_other _ _ differ

theorem step_other {action : Action V} (differ : q ≠ p) (stepped : s.step debug p action = some s') :
    s'.pc q = s.pc q := by
  unfold System.step System.advance at stepped
  repeat' split at stepped
  all_goals cases stepped
  all_goals simp [differ]

theorem panicked_stays {action : Action V} (panicked : s.pc q = .panicked reason)
    (stepped : s.step debug p action = some s') : s'.pc q = .panicked reason := by
  by_cases same : q = p
  · subst same
    cases action <;> simp [System.step, System.advance, panicked] at stepped
  · rw [step_other same stepped, panicked]

theorem panicked_remains {schedule : List (P × Action V)} (panicked : s.pc q = .panicked reason)
    (reached : s.run debug schedule = some s') : s'.pc q = .panicked reason := by
  induction schedule generalizing s with
  | nil =>
    cases reached
    exact panicked
  | cons first rest ih =>
    obtain ⟨p, action⟩ := first
    simp only [System.run, Option.bind_eq_bind, Option.bind_eq_some_iff] at reached
    obtain ⟨mid, stepped, reached⟩ := reached
    exact ih (panicked_stays panicked stepped) reached

end Panics

theorem Invariant.run {debug : Bool} {s s' : System V P} {place : Nat → Place P} {cells : List Nat}
    {locals : P → List Nat} (inv : Invariant s place cells locals) {schedule : List (P × Action V)}
    (safe : s.SafeRun debug schedule) (reached : s.run debug schedule = some s')
    (room : ∀ q, s'.pc q ≠ .panicked .tagOverflow) :
    ∃ place' cells' locals', Invariant s' place' cells' locals' := by
  induction schedule generalizing s place cells locals with
  | nil =>
    cases reached
    exact ⟨_, _, _, inv⟩
  | cons first rest ih =>
    obtain ⟨p, action⟩ := first
    simp only [System.run, Option.bind_eq_bind, Option.bind_eq_some_iff] at reached
    obtain ⟨mid, stepped, reached⟩ := reached
    have room' : ∀ q, mid.pc q ≠ .panicked .tagOverflow := by
      intro q panicked
      exact room q (panicked_remains panicked reached)
    obtain ⟨_, _, _, kept⟩ := inv.step safe.1 stepped room'
    exact ih kept (safe.2 mid stepped) reached

theorem slots_handed_out_once (debug : Bool) {size : Nat} (positive : 0 < size) {s₀ s : System V P}
    (constructed : System.new size = .ok s₀) (schedule : List (P × Action V)) (safe : s₀.SafeRun debug schedule)
    (reached : s₀.run debug schedule = some s) (room : ∀ q, s.pc q ≠ .panicked .tagOverflow) : s.Exclusive := by
  obtain ⟨_, _, _, inv⟩ := new_invariant positive constructed
  obtain ⟨_, _, _, inv'⟩ := inv.run safe reached room
  exact inv'.exclusive

/-- An entry is removed by another processor, so that its slot returns to the global list, where both processors then
    read it as the head. The first one to exchange it gets it, and the other takes the next. -/
def reused (idx : Idx) : List (Bool × Action Nat) :=
  ((false, .insert 7) :: List.replicate 6 (false, .advance false)) ++
    ((true, .remove idx) :: List.replicate 8 (true, .advance false)) ++
    [(true, .insert 8), (true, .advance false), (true, .advance false), (false, .insert 9), (false, .advance false),
      (false, .advance false), (false, .advance false), (true, .advance false), (true, .advance false),
      (true, .advance false), (true, .advance false)]

theorem slots_handed_out_once_reused :
    ∃ (idx : Idx) (s₀ s : System Nat Bool), System.new 2 = .ok s₀ ∧ s₀.run true (reused idx) = some s ∧
      s.pc false = .allocLoad 9 idx.index ∧ s.pc true = .allocLoad 8 1 ∧ s.Exclusive := by
  refine ⟨⟨1, 0, by decide, by decide⟩, _, _, rfl, rfl, rfl, rfl, ?_⟩
  have safe : (⟨.fresh 2, fun _ => .idle, 0⟩ : System Nat Bool).SafeRun true
      (reused ⟨1, 0, by decide, by decide⟩) := by decide +kernel
  refine @slots_handed_out_once Nat Bool _ true 2 (by decide) _ _ rfl _ safe rfl ?_
  intro q panicked
  cases q <;> cases panicked

/-- The first processor reads the head and its successor. The second takes both slots, and the third frees the one
    that was the head: its word carries the tag 0, so it is the word the first processor waits for. -/
def recurringHead : List (Fin 3 × Action Unit) :=
  [(0, .insert ()), (0, .advance false), (0, .advance false)] ++
  ((1, .insert ()) :: List.replicate 6 (1, .advance false)) ++ ((1, .insert ()) :: List.replicate 6 (1, .advance false)) ++
  ((2, .remove ⟨1, 0, by decide, by decide⟩) :: List.replicate 8 (2, .advance false)) ++
  [(0, .advance false), (2, .insert ()), (2, .advance false), (2, .advance false), (2, .advance false)]

theorem allocated_slot_handed_out :
    ∃ s₀ s : System Unit (Fin 3), System.new 2 = .ok s₀ ∧ s₀.run true recurringHead = some s ∧
      s.pc 2 = .allocLoad () 1 ∧ (s.slab.lifecycle 1).state = .allocated ∧ ¬ s.Exclusive := by
  refine ⟨_, _, rfl, rfl, rfl, rfl, ?_⟩
  intro exclusive
  cases (exclusive 2 () 1 rfl).1

end PlatyposSlab.Machine
