import Platypos.Library.Schedule
import Platypos.Slab.MachineSafety

namespace PlatyposSlab.Machine

open CasLoop TaggedStack Schedule

variable {V P : Type}

/-- What an `insert` returns, and the value that it was given. -/
structure Issued (V : Type) where
  index : Nat
  generation : Nat
  value : V

def Pc.clearing : Pc V → Option Nat
  | .clearLoad index => some index
  | .clearStore index _ => some index
  | .clearTake index => some index
  | _ => none

/-- The lifecycle that is going to be stored is of the next generation in an insert, and of the same in a removal. -/
def Pc.Keeps (generation : Nat) : Pc V → Prop
  | .allocStore _ _ new => new.generation = generation + 1
  | .clearStore _ new => new.generation = generation
  | _ => True

/-- What is in use holds the value that was issued for its generation, unless the insert is not over. -/
structure Valued (s : System V P) (issued : List (Issued V)) : Prop where
  used : ∀ i, (s.slab.lifecycle i).state = .allocated ∨ 0 < (s.slab.lifecycle i).refcount →
    (∃ q value, s.pc q = .allocFill value i) ∨
      ∃ value, s.slab.contents i = some value ∧ ⟨i, (s.slab.lifecycle i).generation, value⟩ ∈ issued
  filling : ∀ q value i, s.pc q = .allocFill value i → (s.slab.lifecycle i).refcount = 0 ∧
    ∀ e ∈ issued, e.index = i → e.generation < (s.slab.lifecycle i).generation
  clearing : ∀ q i, (s.pc q).clearing = some i → ∃ value, s.slab.contents i = some value
  keeps : ∀ q i, (s.pc q).holding = some i → (s.pc q).Keeps (s.slab.lifecycle i).generation
  past : ∀ e ∈ issued, e.generation ≤ (s.slab.lifecycle e.index).generation
  once : ∀ e ∈ issued, ∀ e' ∈ issued, e.index = e'.index → e.generation = e'.generation → e.value = e'.value
  calm : ∀ q, s.pc q ≠ .panicked .uninitialized

theorem Pc.holding_of_clearing {pc : Pc V} {i : Nat} (clears : pc.clearing = some i) : pc.holding = some i := by
  cases pc <;> simp_all [Pc.clearing, Pc.holding]

theorem new_valued {size : Nat} {s : System V P} (constructed : System.new size = .ok s) : Valued s [] := by
  unfold System.new Slab.new at constructed
  split at constructed
  · cases constructed
    constructor <;> simp [Slab.fresh, Pc.clearing, Pc.Keeps]
  · cases constructed

variable [DecidableEq P]

namespace System

def issue (s : System V P) (p : P) : Action V → Option (Issued V)
  | .advance _ =>
    match s.pc p with
    | .allocFill value i => some ⟨i, (s.slab.lifecycle i).generation, value⟩
    | _ => none
  | _ => none

/-- What the inserts of a run have issued. -/
def issued (debug : Bool) : System V P → List (P × Action V) → List (Issued V)
  | _, [] => []
  | s, (p, action) :: schedule =>
    match s.step debug p action with
    | none => []
    | some s' => (s.issue p action).toList ++ issued debug s' schedule

/-- Beside what makes a step safe: it does not get an entry whose insert has not returned yet. -/
def Careful (s : System V P) (p : P) : Prop :=
  s.Safe p ∧ match s.pc p with
    | .acquire idx _ =>
      ∀ q value, s.pc q = .allocFill value idx.index → (s.slab.lifecycle idx.index).generation ≠ idx.generation
    | _ => True

/-- The entry that the processor is about to get. -/
def acquiring (s : System V P) (p : P) : Option Idx :=
  match s.pc p with
  | .acquire idx _ => some idx
  | _ => none

omit [DecidableEq P] in
theorem careful_iff {s : System V P} {p : P} : s.Careful p ↔ s.Safe p ∧ ∀ idx ∈ s.acquiring p, ∀ q value,
    s.pc q = .allocFill value idx.index → (s.slab.lifecycle idx.index).generation ≠ idx.generation := by
  unfold Careful acquiring
  cases s.pc p <;> simp

instance [Fintype P] (s : System V P) (p : P) : Decidable (s.Careful p) := decidable_of_iff _ careful_iff.symm

end System

section Steps

variable {s : System V P} {issued : List (Issued V)} {p : P} {b : Pc V} (valued : Valued s issued)

include valued

/-- A processor moves on, and no slot changes. -/
theorem Valued.move {slab : Slab V P} {refs : Multiset (P × Idx)} (lifecycle : slab.lifecycle = s.slab.lifecycle)
    (contents : slab.contents = s.slab.contents) (leaves : ∀ value i, s.pc p ≠ .allocFill value i)
    (enters : ∀ value i, b ≠ .allocFill value i) (clears : ∀ i, b.clearing = some i → (s.pc p).clearing = some i)
    (keeps : ∀ i, b.holding = some i → b.Keeps (s.slab.lifecycle i).generation) (calm : b ≠ .panicked .uninitialized) :
    Valued ({ s with slab := slab, refs := refs }.setPc p b) issued where
  used i busy := by
    simp only [System.setPc, lifecycle, contents] at busy ⊢
    rcases valued.used i busy with ⟨q, value, filling⟩ | held
    · refine .inl ⟨q, value, ?_⟩
      rw [Function.update_of_ne, filling]
      rintro rfl
      exact leaves value i filling
    · exact .inr held
  filling q value i filling := by
    simp only [System.setPc, lifecycle] at filling ⊢
    rcases update_cases filling with ⟨_, same⟩ | ⟨_, before⟩
    · exact absurd same (enters value i)
    · exact valued.filling q value i before
  clearing q i clearing := by
    simp only [System.setPc, contents] at clearing ⊢
    by_cases same : q = p
    · subst same
      rw [Function.update_self] at clearing
      exact valued.clearing q i (clears i clearing)
    · rw [Function.update_of_ne same] at clearing
      exact valued.clearing q i clearing
  keeps q i holding := by
    simp only [System.setPc, lifecycle] at holding ⊢
    by_cases same : q = p
    · subst same
      rw [Function.update_self] at holding ⊢
      exact keeps i holding
    · rw [Function.update_of_ne same] at holding ⊢
      exact valued.keeps q i holding
  past e member := by
    simp only [System.setPc, lifecycle]
    exact valued.past e member
  once := valued.once
  calm q panicked := by
    rcases update_cases panicked with ⟨_, same⟩ | ⟨_, before⟩
    · exact calm same
    · exact valued.calm q before

/-- An exchange on the lifecycle of a slot that no insert is filling. -/
theorem Valued.exchange {refs : Multiset (P × Idx)} {i : Nat} {new : Lifecycle}
    (generation : new.generation = (s.slab.lifecycle i).generation)
    (busy : (s.slab.lifecycle i).state = .allocated ∨ 0 < (s.slab.lifecycle i).refcount)
    (unfilled : ∀ q value, s.pc q ≠ .allocFill value i) (leaves : ∀ value j, s.pc p ≠ .allocFill value j)
    (next : b = .idle ∨ b = .clearLoad i) :
    Valued (({ s with refs := refs }.setLifecycle i new).setPc p b) issued := by
  obtain ⟨value, full, known⟩ := (valued.used i busy).resolve_left fun ⟨q, value, filling⟩ => unfilled q value filling
  have same : ∀ j, (Function.update s.slab.lifecycle i new j).generation = (s.slab.lifecycle j).generation := by
    intro j
    by_cases here : j = i
    · subst here
      rw [Function.update_self, generation]
    · rw [Function.update_of_ne here]
  have away : ∀ q value j, Function.update s.pc p b q = .allocFill value j → s.pc q = .allocFill value j := by
    intro q value j filling
    rcases update_cases filling with ⟨_, this⟩ | ⟨_, before⟩
    · rcases next with rfl | rfl <;> cases this
    · exact before
  refine ⟨?_, ?_, ?_, ?_, ?_, valued.once, ?_⟩
  · intro j used
    simp only [System.setPc, System.setLifecycle, same] at used ⊢
    by_cases here : j = i
    · subst here
      exact .inr ⟨value, full, known⟩
    · rw [Function.update_of_ne here] at used
      rcases valued.used j used with ⟨q, value, filling⟩ | held
      · refine .inl ⟨q, value, ?_⟩
        rw [Function.update_of_ne, filling]
        rintro rfl
        exact leaves value j filling
      · exact .inr held
  · intro q value j filling
    simp only [System.setPc, System.setLifecycle, same] at filling ⊢
    have before := away q value j filling
    rw [Function.update_of_ne]
    · exact valued.filling q value j before
    · rintro rfl
      exact unfilled q value before
  · intro q j clearing
    simp only [System.setPc, System.setLifecycle] at clearing ⊢
    by_cases here : q = p
    · subst here
      rw [Function.update_self] at clearing
      rcases next with rfl | rfl
      · cases clearing
      · cases clearing
        exact ⟨value, full⟩
    · rw [Function.update_of_ne here] at clearing
      exact valued.clearing q j clearing
  · intro q j holding
    simp only [System.setPc, System.setLifecycle, same] at holding ⊢
    by_cases here : q = p
    · subst here
      rw [Function.update_self]
      rcases next with rfl | rfl <;> trivial
    · rw [Function.update_of_ne here] at holding ⊢
      exact valued.keeps q j holding
  · intro e member
    simp only [System.setPc, System.setLifecycle, same]
    exact valued.past e member
  · intro q panicked
    rcases update_cases panicked with ⟨_, this⟩ | ⟨_, before⟩
    · rcases next with rfl | rfl <;> cases this
    · exact valued.calm q before

variable {place : Nat → Place P} {cells : List Nat} {locals : P → List Nat} (inv : Invariant s place cells locals)

include inv

/-- The holder of a slot stores its lifecycle. -/
theorem Valued.store {i : Nat} {new : Lifecycle} (before : (s.pc p).holding = some i) (after : b.holding = some i)
    (leaves : ∀ value j, s.pc p ≠ .allocFill value j) (older : (s.slab.lifecycle i).generation ≤ new.generation)
    (none : new.refcount = 0) (used : new.state = .allocated → ∃ value, b = .allocFill value i)
    (fresh : ∀ value, b = .allocFill value i → (s.slab.lifecycle i).generation < new.generation)
    (clears : ∀ j, b.clearing = some j → (s.pc p).clearing = some j) (keeps : b.Keeps new.generation) :
    Valued ((s.setLifecycle i new).setPc p b) issued := by
  have unheld : ∀ q, q ≠ p → (s.pc q).holding ≠ some i := fun q => inv.held_ne before
  refine ⟨?_, ?_, ?_, ?_, ?_, valued.once, ?_⟩
  · intro j busy
    simp only [System.setPc, System.setLifecycle] at busy ⊢
    by_cases here : j = i
    · subst here
      rw [Function.update_self] at busy
      obtain ⟨value, filling⟩ := used (busy.resolve_right (by omega))
      exact .inl ⟨p, value, by rw [Function.update_self, filling]⟩
    · rw [Function.update_of_ne here] at busy ⊢
      rcases valued.used j busy with ⟨q, value, filling⟩ | held
      · refine .inl ⟨q, value, ?_⟩
        rw [Function.update_of_ne, filling]
        rintro rfl
        exact leaves value j filling
      · exact .inr held
  · intro q value j filling
    simp only [System.setPc, System.setLifecycle] at filling ⊢
    rcases update_cases filling with ⟨_, this⟩ | ⟨differ, earlier⟩
    · subst this
      cases after
      rw [Function.update_self]
      refine ⟨none, ?_⟩
      rintro e member rfl
      exact Nat.lt_of_le_of_lt (valued.past e member) (fresh value rfl)
    · rw [Function.update_of_ne]
      · exact valued.filling q value j earlier
      · rintro rfl
        exact unheld q differ (by rw [earlier]; rfl)
  · intro q j clearing
    simp only [System.setPc, System.setLifecycle] at clearing ⊢
    by_cases here : q = p
    · subst here
      rw [Function.update_self] at clearing
      exact valued.clearing q j (clears j clearing)
    · rw [Function.update_of_ne here] at clearing
      exact valued.clearing q j clearing
  · intro q j holding
    simp only [System.setPc, System.setLifecycle] at holding ⊢
    by_cases here : q = p
    · subst here
      rw [Function.update_self] at holding ⊢
      obtain rfl := Pc.only_holding after j holding
      rwa [Function.update_self]
    · rw [Function.update_of_ne here] at holding ⊢
      rw [Function.update_of_ne]
      · exact valued.keeps q j holding
      · rintro rfl
        exact unheld q here holding
  · intro e member
    simp only [System.setPc, System.setLifecycle]
    have earlier := valued.past e member
    by_cases here : e.index = i
    · rw [here] at earlier ⊢
      rw [Function.update_self]
      exact Nat.le_trans earlier older
    · rwa [Function.update_of_ne here]
  · intro q panicked
    rcases update_cases panicked with ⟨_, this⟩ | ⟨_, earlier⟩
    · exact absurd this (Pc.calm_of_holding after _)
    · exact valued.calm q earlier

/-- The value is written, and the index issued. -/
theorem Valued.fill {value : V} {i : Nat} {processor : Nat → Option P} (filling : s.pc p = .allocFill value i) :
    Valued ({ s with slab := { s.slab with
        contents := Function.update s.slab.contents i (some value), processor := processor } }.setPc p .idle)
      (issued ++ [⟨i, (s.slab.lifecycle i).generation, value⟩]) := by
  have before : (s.pc p).holding = some i := by rw [filling]; rfl
  obtain ⟨_, fresh⟩ := valued.filling p value i filling
  refine ⟨?_, ?_, ?_, ?_, ?_, ?_, ?_⟩
  · intro j busy
    simp only [System.setPc] at busy ⊢
    by_cases here : j = i
    · subst here
      exact .inr ⟨value, Function.update_self .., List.mem_append_right _ (List.mem_singleton_self _)⟩
    · rcases valued.used j busy with ⟨q, value', filling'⟩ | ⟨value', full, known⟩
      · refine .inl ⟨q, value', ?_⟩
        rw [Function.update_of_ne, filling']
        rintro rfl
        cases filling.symm.trans filling'
        exact here rfl
      · exact .inr ⟨value', by rwa [Function.update_of_ne here], List.mem_append_left _ known⟩
  · intro q value' j filling'
    simp only [System.setPc] at filling' ⊢
    rcases update_cases filling' with ⟨_, this⟩ | ⟨differ, earlier⟩
    · cases this
    · obtain ⟨none, older⟩ := valued.filling q value' j earlier
      refine ⟨none, ?_⟩
      intro e member
      rcases List.mem_append.mp member with member | last
      · exact older e member
      · obtain rfl := List.mem_singleton.mp last
        rintro rfl
        exact absurd (by rw [earlier]; rfl) (inv.held_ne before differ)
  · intro q j clearing
    simp only [System.setPc] at clearing ⊢
    by_cases here : j = i
    · subst here
      exact ⟨value, Function.update_self ..⟩
    · rw [Function.update_of_ne here]
      by_cases same : q = p
      · subst same
        rw [Function.update_self] at clearing
        cases clearing
      · rw [Function.update_of_ne same] at clearing
        exact valued.clearing q j clearing
  · intro q j holding
    simp only [System.setPc] at holding ⊢
    by_cases same : q = p
    · subst same
      rw [Function.update_self]
      trivial
    · rw [Function.update_of_ne same] at holding ⊢
      exact valued.keeps q j holding
  · intro e member
    rcases List.mem_append.mp member with member | last
    · exact valued.past e member
    · obtain rfl := List.mem_singleton.mp last
      exact Nat.le_refl _
  · intro e member e' member' index generation
    rcases List.mem_append.mp member with member | last <;> rcases List.mem_append.mp member' with member' | last'
    · exact valued.once e member e' member' index generation
    · obtain rfl := List.mem_singleton.mp last'
      exact absurd generation (Nat.ne_of_lt (fresh e member index))
    · obtain rfl := List.mem_singleton.mp last
      exact absurd generation (Nat.ne_of_gt (fresh e' member' index.symm))
    · rw [List.mem_singleton.mp last, List.mem_singleton.mp last']
  · intro q panicked
    rcases update_cases panicked with ⟨_, this⟩ | ⟨_, earlier⟩
    · cases this
    · exact valued.calm q earlier

/-- The value is dropped when nothing refers to the slot. -/
theorem Valued.take {i : Nat} {processor : Nat → Option P} (taking : s.pc p = .clearTake i)
    (loose : b = .pushLocal i ∨ b = .pushTag i) :
    Valued ({ s with slab := { s.slab with
        contents := Function.update s.slab.contents i none, processor := processor } }.setPc p b) issued := by
  have before : (s.pc p).holding = some i := by rw [taking]; rfl
  have suits := inv.suits before
  rw [taking] at suits
  have free : ∀ j, (s.slab.lifecycle j).state = .allocated ∨ 0 < (s.slab.lifecycle j).refcount → j ≠ i := by
    rintro j busy rfl
    rcases busy with state | referenced
    · cases state.symm.trans suits.1
    · exact absurd suits.2 (Nat.ne_of_gt referenced)
  have moved : Valued ({ s with slab := s.slab }.setPc p b) issued := by
    refine valued.move rfl rfl ?_ ?_ ?_ ?_ ?_
    · simp [taking]
    · rcases loose with rfl | rfl <;> simp
    · rcases loose with rfl | rfl <;> simp [Pc.clearing]
    · rcases loose with rfl | rfl <;> simp [Pc.Keeps]
    · rcases loose with rfl | rfl <;> simp
  refine { moved with used := ?_, clearing := ?_ }
  · intro j busy
    simp only [System.setPc, Function.update_of_ne (free j busy)]
    exact moved.used j busy
  · intro q j clearing
    simp only [System.setPc] at clearing ⊢
    rw [Function.update_of_ne]
    · exact moved.clearing q j clearing
    · rintro rfl
      by_cases same : q = p
      · subst same
        rw [Function.update_self] at clearing
        rcases loose with rfl | rfl <;> cases clearing
      · rw [Function.update_of_ne same] at clearing
        exact inv.held_ne before same (Pc.holding_of_clearing clearing)

end Steps

section Exchanges

variable {s : System V P} {issued : List (Issued V)} {p : P} {idx : Idx} (valued : Valued s issued)
  (leaves : ∀ value i, s.pc p ≠ .allocFill value i)

include valued leaves

theorem Valued.rest {b : Pc V} (free : b.holding = none) (calm : b ≠ .panicked .uninitialized) :
    Valued (s.setPc p b) issued := by
  refine valued.move rfl rfl leaves ?_ ?_ ?_ calm
  · rintro value i rfl
    cases free
  · intro i clearing
    cases free.symm.trans (Pc.holding_of_clearing clearing)
  · intro i holding
    cases free.symm.trans holding

theorem Valued.afterAcquire {outcome : Outcome (Lifecycle.acquireReference idx.generation)}
    (allowed : outcome.Of (s.slab.lifecycle idx.index))
    (returned : ∀ new, outcome = .committed new () → ∀ q value, s.pc q = .allocFill value idx.index →
      (s.slab.lifecycle idx.index).generation ≠ idx.generation) : Valued (s.afterAcquire p idx outcome) issued := by
  cases outcome with
  | refused error => exact valued.rest leaves rfl (by simp)
  | panicked reason =>
    obtain ⟨rfl, _⟩ := Lifecycle.acquireReference_panic allowed
    exact valued.rest leaves rfl (by simp)
  | retry proposal => exact valued.rest leaves rfl (by simp)
  | committed new result =>
    obtain ⟨current, state, generation, _, _⟩ := Lifecycle.acquireReference_propose allowed
    exact valued.exchange generation (.inl state) (fun q value filling => returned new rfl q value filling current)
      leaves (.inl rfl)

theorem Valued.afterRelease {outcome : Outcome (Lifecycle.releaseReference idx.generation)}
    (allowed : outcome.Of (s.slab.lifecycle idx.index)) : Valued (s.afterRelease p idx outcome) issued := by
  cases outcome with
  | refused error => exact valued.rest leaves rfl (by simp)
  | panicked reason =>
    refine valued.rest leaves rfl ?_
    rintro same
    cases same
    unfold Outcome.Of Lifecycle.releaseReference at allowed
    grind
  | retry proposal => exact valued.rest leaves rfl (by simp)
  | committed new last =>
    obtain ⟨_, _, generation, _, fewer, _⟩ := Lifecycle.releaseReference_propose allowed
    have referenced : 0 < (s.slab.lifecycle idx.index).refcount := by omega
    refine valued.exchange generation (.inr referenced) ?_ leaves (by cases last <;> simp)
    intro q value filling
    exact absurd (valued.filling q value idx.index filling).1 (Nat.ne_of_gt referenced)

theorem Valued.afterMark {outcome : Outcome (Lifecycle.markUnallocated idx.generation)}
    (allowed : outcome.Of (s.slab.lifecycle idx.index))
    (returned : ∀ new unallocated, outcome = .committed new unallocated → ∀ q value,
      s.pc q = .allocFill value idx.index → (s.slab.lifecycle idx.index).generation ≠ idx.generation) :
    Valued (s.afterMark p idx outcome) issued := by
  cases outcome with
  | refused error => exact valued.rest leaves rfl (by simp)
  | panicked reason => exact absurd allowed Lifecycle.markUnallocated_ne_panic
  | retry proposal => exact valued.rest leaves rfl (by simp)
  | committed new unallocated =>
    obtain ⟨current, state, generation, _, _, _⟩ := Lifecycle.markUnallocated_propose allowed
    exact valued.exchange generation (.inl state)
      (fun q value filling => returned new unallocated rfl q value filling current) leaves (by cases unallocated <;> simp)

end Exchanges

theorem localPop_unchanged {slab slab' : Slab V P} {p : P} {popped : Option Nat}
    (done : slab.localPop p = .ok (popped, slab')) :
    slab'.lifecycle = slab.lifecycle ∧ slab'.contents = slab.contents := by
  unfold Slab.localPop at done
  repeat' split at done
  all_goals cases done
  all_goals exact ⟨rfl, rfl⟩

theorem localPop_error {slab : Slab V P} {p : P} {reason : Panic} (failed : slab.localPop p = .error reason) :
    reason = .indexOutOfBounds := by
  unfold Slab.localPop at failed
  repeat' split at failed
  all_goals cases failed
  rfl

section Run

variable {debug : Bool} {s s' : System V P} {issued : List (Issued V)} {p : P} {place : Nat → Place P}
  {cells : List Nat} {locals : P → List Nat} (valued : Valued s issued) (inv : Invariant s place cells locals)

include valued inv

theorem Valued.advance {spurious : Bool} (careful : s.Careful p) (advanced : s.advance debug p spurious = some s')
    (leaves : ∀ value i, s.pc p ≠ .allocFill value i) : Valued s' issued := by
  unfold System.advance at advanced
  cases pc : s.pc p with
  | idle => simp [pc] at advanced
  | popLoad value =>
    simp only [pc] at advanced
    split at advanced <;> cases advanced <;> exact valued.rest leaves rfl (by simp)
  | popRead value old =>
    simp only [pc] at advanced
    split at advanced <;> cases advanced <;> exact valued.rest leaves rfl (by simp)
  | popSwap value old new =>
    simp only [pc] at advanced
    split at advanced
    · cases advanced
      exact valued.move rfl rfl leaves (by simp) (by simp [Pc.clearing]) (fun _ _ => trivial) (by simp)
    · cases advanced
      exact valued.rest leaves rfl (by simp)
  | allocLoad value i =>
    have suits := inv.suits (p := p) (i := i) (by rw [pc]; rfl)
    simp only [pc, Pc.Suits] at advanced suits
    split at advanced
    · rename_i new allocated
      cases advanced
      refine valued.move rfl rfl leaves (by simp) (by simp [Pc.clearing]) ?_ (by simp)
      intro j holding
      cases holding
      exact (Lifecycle.allocate_ok allocated).1
    · rename_i reason failed
      cases advanced
      obtain ⟨rfl, _⟩ := Lifecycle.allocate_error suits.2 failed
      exact valued.rest leaves rfl (by simp)
  | allocStore value i new =>
    have before : (s.pc p).holding = some i := by rw [pc]; rfl
    have suits := inv.suits before
    have next := valued.keeps p i before
    simp only [pc, Pc.Suits, Pc.Keeps, Option.some.injEq] at advanced suits next
    subst advanced
    exact valued.store inv before rfl leaves (by omega) suits.2.2.2 (fun _ => ⟨value, rfl⟩) (fun _ _ => by omega)
      (by simp [Pc.clearing]) trivial
  | allocFill value i => exact absurd pc (leaves value i)
  | acquire idx proposal =>
    have returned := careful.2
    cases spurious <;> simp only [pc, Option.some.injEq, if_true, Bool.false_eq_true, if_false] at advanced returned
    · subst advanced
      exact valued.afterAcquire leaves (exchange_of ..) fun _ _ => returned
    · cases advanced
  | release idx proposal =>
    cases spurious <;> simp only [pc, Option.some.injEq, if_true, Bool.false_eq_true, if_false] at advanced
    · subst advanced
      exact valued.afterRelease leaves (exchange_of ..)
    · cases advanced
  | mark idx proposal =>
    have returned := careful.1
    simp only [System.Safe, pc, Option.some.injEq] at advanced returned
    subst advanced
    exact valued.afterMark leaves (exchange_of ..) fun _ _ _ => returned
  | clearLoad i =>
    have before : (s.pc p).holding = some i := by rw [pc]; rfl
    have suits := inv.suits before
    simp only [pc, Pc.Suits] at advanced suits
    rw [Lifecycle.clear_eq suits.2] at advanced
    cases advanced
    refine valued.move rfl rfl leaves (by simp) ?_ ?_ (by simp)
    · intro j clearing
      rw [pc]
      exact clearing
    · intro j holding
      cases holding
      rfl
  | clearStore i new =>
    have before : (s.pc p).holding = some i := by rw [pc]; rfl
    have suits := inv.suits before
    have next := valued.keeps p i before
    simp only [pc, Pc.Suits, Pc.Keeps, Option.some.injEq] at advanced suits next
    subst advanced
    refine valued.store inv before rfl leaves (by omega) suits.2.2.2 ?_ (by simp) ?_ trivial
    · intro state
      cases state.symm.trans suits.2.2.1
    · intro j clearing
      rw [pc]
      exact clearing
  | clearTake i =>
    obtain ⟨value, full⟩ := valued.clearing p i (by rw [pc]; rfl)
    simp only [pc, full] at advanced
    cases advanced
    refine valued.take inv pc ?_
    split <;> simp
  | pushLocal i =>
    have inside := (inv.held (p := p) (i := i) (by rw [pc]; rfl)).1
    simp only [pc, Slab.localPush, if_pos inside] at advanced
    cases advanced
    exact valued.move rfl rfl leaves (by simp) (by simp [Pc.clearing]) (fun _ _ => trivial) (by simp)
  | pushTag i =>
    simp only [pc] at advanced
    cases advanced
    refine valued.move rfl rfl leaves ?_ ?_ ?_ ?_
    all_goals repeat' split
    all_goals simp [Pc.clearing, Pc.Keeps]
  | pushLoad i t =>
    simp only [pc] at advanced
    cases advanced
    exact valued.move rfl rfl leaves (by simp) (by simp [Pc.clearing]) (fun _ _ => trivial) (by simp)
  | pushWrite i t old =>
    simp only [pc] at advanced
    split at advanced <;> cases advanced <;>
      exact valued.move rfl rfl leaves (by simp) (by simp [Pc.clearing]) (fun _ _ => trivial) (by simp)
  | pushSwap i t old =>
    simp only [pc] at advanced
    split at advanced <;> cases advanced <;>
      exact valued.move rfl rfl leaves (by simp) (by simp [Pc.clearing]) (fun _ _ => trivial) (by simp)
  | panicked reason => simp [pc] at advanced

theorem Valued.step {action : Action V} (careful : s.Careful p) (stepped : s.step debug p action = some s') :
    Valued s' (issued ++ (s.issue p action).toList) := by
  cases action with
  | advance spurious =>
    by_cases fills : ∃ value i, s.pc p = .allocFill value i
    · obtain ⟨value, i, pc⟩ := fills
      simp only [System.step, System.advance, pc, Option.some.injEq] at stepped
      subst stepped
      simp only [System.issue, pc]
      exact valued.fill inv pc
    · have leaves : ∀ value i, s.pc p ≠ .allocFill value i := fun value i pc => fills ⟨value, i, pc⟩
      have quiet : s.issue p (.advance spurious) = none := by
        rw [System.issue]
        split
        · rename_i value i pc
          exact absurd pc (leaves value i)
        · rfl
      rw [quiet, Option.toList_none, List.append_nil]
      exact valued.advance inv careful stepped leaves
  | insert value =>
    simp only [System.issue, Option.toList_none, List.append_nil]
    cases pc : s.pc p <;> simp only [System.step, pc, reduceCtorEq] at stepped
    have leaves : ∀ value i, s.pc p ≠ .allocFill value i := by simp [pc]
    split at stepped
    · rename_i i slab popped
      cases stepped
      obtain ⟨lifecycle, contents⟩ := localPop_unchanged popped
      exact valued.move lifecycle contents leaves (by simp) (by simp [Pc.clearing]) (fun _ _ => trivial) (by simp)
    · cases stepped
      exact valued.rest leaves rfl (by simp)
    · rename_i reason failed
      cases stepped
      rw [localPop_error failed]
      exact valued.rest leaves rfl (by simp)
  | get idx =>
    simp only [System.issue, Option.toList_none, List.append_nil]
    cases pc : s.pc p <;> simp only [System.step, pc, reduceCtorEq] at stepped
    split at stepped
    · cases stepped
      exact valued.afterAcquire (by simp [pc]) (consider_of _)
        fun _ committed => absurd committed consider_ne_committed
    · cases stepped
      exact valued
  | remove idx =>
    simp only [System.issue, Option.toList_none, List.append_nil]
    cases pc : s.pc p <;> simp only [System.step, pc, reduceCtorEq] at stepped
    split at stepped
    · cases stepped
      exact valued.afterMark (by simp [pc]) (consider_of _)
        fun _ _ committed => absurd committed consider_ne_committed
    · cases stepped
      exact valued
  | drop idx =>
    simp only [System.issue, Option.toList_none, List.append_nil]
    cases pc : s.pc p <;> simp only [System.step, pc, reduceCtorEq] at stepped
    split at stepped
    · split at stepped
      · cases stepped
        exact valued.afterRelease (by simp [pc]) (consider_of _)
      · cases stepped
        exact valued.rest (by simp [pc]) rfl (by simp)
    · cases stepped

theorem Valued.run {schedule : List (P × Action V)}
    (careful : Meets (fun s a => s.step debug a.1 a.2) (fun s a => s.Careful a.1) s schedule)
    (reached : s.run debug schedule = some s') (room : ∀ q, s'.pc q ≠ .panicked .tagOverflow) :
    Valued s' (issued ++ s.issued debug schedule) ∧ ∃ place' cells' locals', Invariant s' place' cells' locals' := by
  induction schedule generalizing s issued place cells locals with
  | nil =>
    cases reached
    rw [System.issued, List.append_nil]
    exact ⟨valued, _, _, _, inv⟩
  | cons first rest ih =>
    obtain ⟨p, action⟩ := first
    simp only [System.run, Option.bind_eq_bind, Option.bind_eq_some_iff] at reached
    obtain ⟨mid, stepped, reached⟩ := reached
    have room' : ∀ q, mid.pc q ≠ .panicked .tagOverflow := by
      intro q panicked
      exact room q (panicked_remains panicked reached)
    obtain ⟨_, _, _, kept⟩ := inv.step careful.1.1 stepped room'
    rw [System.issued, stepped, ← List.append_assoc]
    exact ih (valued.step inv careful.1 stepped) kept (careful.2 mid stepped) reached

end Run

/-- However processors interleave, a reference leads to the value that was inserted under its index, from the moment it
    is obtained until it is dropped, and no value is dropped that is not there. -/
theorem references_hold_values (debug : Bool) {size : Nat} (positive : 0 < size) {s₀ s : System V P}
    (constructed : System.new size = .ok s₀) (schedule : List (P × Action V))
    (careful : Meets (fun s a => s.step debug a.1 a.2) (fun s a => s.Careful a.1) s₀ schedule)
    (reached : s₀.run debug schedule = some s) (room : ∀ q, s.pc q ≠ .panicked .tagOverflow) :
    (∀ p idx, (p, idx) ∈ s.refs → ∃ value, s.slab.deref idx = some value ∧
      ∀ value', ⟨idx.index, idx.generation, value'⟩ ∈ s₀.issued debug schedule ↔ value' = value) ∧
      ∀ q, s.pc q ≠ .panicked .uninitialized := by
  obtain ⟨_, _, _, inv₀⟩ := new_invariant positive constructed
  obtain ⟨valued, _, _, _, inv⟩ := (new_valued constructed).run inv₀ careful reached room
  rw [List.nil_append] at valued
  refine ⟨?_, valued.calm⟩
  intro p idx held
  have counted := inv.counted idx.index
  have listed : idx.generation ∈ refsAt s.refs idx.index :=
    Multiset.mem_map.mpr ⟨(p, idx), Multiset.mem_filter.mpr ⟨held, rfl⟩, rfl⟩
  have current := counted.current _ listed
  have referenced : 0 < (s.slab.lifecycle idx.index).refcount := by
    rw [counted.count]
    exact Multiset.card_pos_iff_exists_mem.mpr ⟨_, listed⟩
  rcases valued.used idx.index (.inr referenced) with ⟨q, value, filling⟩ | ⟨value, full, known⟩
  · exact absurd (valued.filling q value _ filling).1 (Nat.ne_of_gt referenced)
  · rw [← current] at known
    refine ⟨value, full, ?_⟩
    intro value'
    constructor
    · intro other
      exact valued.once _ other _ known rfl rfl
    · rintro rfl
      exact known

/-- An entry is removed while another processor refers to it. -/
def lastReference (idx : Idx) : List (Bool × Action Nat) :=
  ((false, .insert 7) :: List.replicate 6 (false, .advance false)) ++
    [(true, .get idx), (true, .advance false), (false, .remove idx), (false, .advance false)]

theorem lastReference_careful :
    Meets (fun s a => System.step true s a.1 a.2) (fun s a => s.Careful a.1)
      (⟨.fresh 1, fun _ => .idle, 0⟩ : System Nat Bool) (lastReference ⟨1, 0, by decide, by decide⟩) := by
  decide +kernel

theorem references_hold_values_removed :
    ∃ (idx : Idx) (s₀ s : System Nat Bool), System.new 1 = .ok s₀ ∧ s₀.run true (lastReference idx) = some s ∧
      (s.slab.lifecycle idx.index).state = .zombie ∧ (true, idx) ∈ s.refs ∧
      ∃ value, s.slab.deref idx = some value ∧
        ∀ value', ⟨idx.index, idx.generation, value'⟩ ∈ s₀.issued true (lastReference idx) ↔ value' = value := by
  refine ⟨⟨1, 0, by decide, by decide⟩, _, _, rfl, rfl, rfl, by decide, ?_⟩
  refine (@references_hold_values Nat Bool _ true 1 (by decide) _ _ rfl _ lastReference_careful rfl ?_).1 true _
    (by decide)
  intro q panicked
  cases q <;> cases panicked

end PlatyposSlab.Machine
