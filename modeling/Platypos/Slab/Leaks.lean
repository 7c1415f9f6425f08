import Platypos.Slab.MapView

namespace PlatyposSlab

open Outcome Chain Exec

variable {V P : Type}

section Size

variable {s : Slab V P}

theorem get_size (idx : Idx) : Ensures (s.get idx) (fun r => r.2.size = s.size) fun _ => True := by
  unfold Slab.get
  repeat' split
  all_goals trivial

variable [DecidableEq P]

theorem pop_size (p : P) : Ensures (s.pop p) (fun r => r.2.size = s.size) fun _ => True := by
  have locally : Ensures (s.localPop p) (fun r => r.2.size = s.size) fun _ => True := by
    unfold Slab.localPop
    repeat' split
    all_goals trivial
  apply locally.bind
  intro r same
  obtain ⟨popped, s'⟩ := r
  cases popped with
  | some i => exact same
  | none =>
    simp only [Slab.globalPop]
    split
    · exact same
    · split
      · exact same
      · trivial

theorem insert_size (debug : Bool) (p : P) (value : V) :
    Ensures (s.insert debug p value) (fun r => r.2.size = s.size) fun _ => True := by
  apply (pop_size p).bind
  intro r same
  obtain ⟨popped, s'⟩ := r
  cases popped with
  | none => exact same
  | some i =>
    have allocated : Ensures (s'.allocate debug p i value) (fun r => r.2.size = s.size) fun _ => True := by
      unfold Slab.allocate
      cases (s'.lifecycle i).allocate debug with
      | error reason => trivial
      | ok l =>
        simp only [Bind.bind, Except.bind]
        split
        · exact same
        · trivial
    apply allocated.bind
    intro r same
    exact same

theorem returnSlot_size (debug : Bool) (p : P) (i : Nat) :
    Ensures (s.returnSlot debug p i) (fun r => r.2.size = s.size) fun _ => True := by
  have cleared : Ensures (s.clear debug i) (fun r => r.2.2.size = s.size) fun _ => True := by
    unfold Slab.clear
    cases (s.lifecycle i).clear debug with
    | error reason => trivial
    | ok l =>
      simp only [Bind.bind, Except.bind]
      cases s.contents i <;> trivial
  apply cleared.bind
  intro r same
  obtain ⟨processor, value, s'⟩ := r
  simp only
  split
  · have pushed : Ensures (s'.localPush p i) (fun s => s.size = s'.size) fun _ => True := by
      unfold Slab.localPush
      split <;> trivial
    apply pushed.bind
    intro s'' same'
    exact same'.trans same
  · have pushed : Ensures (s'.globalPush i) (fun s => s.size = s'.size) fun _ => True := by
      unfold Slab.globalPush
      repeat' split
      all_goals trivial
    apply pushed.bind
    intro s'' same'
    exact same'.trans same

theorem remove_size (debug : Bool) (p : P) (idx : Idx) :
    Ensures (s.remove debug p idx) (fun r => r.2.2.size = s.size) fun _ => True := by
  unfold Slab.remove
  split
  · split
    · rfl
    · trivial
    · rfl
    · apply (returnSlot_size debug p idx.index).bind
      intro r same
      exact same
  · rfl

theorem dropReference_size (debug : Bool) (p : P) (idx : Idx) :
    Ensures (s.dropReference debug p idx) (fun r => r.2.size = s.size) fun _ => True := by
  unfold Slab.dropReference
  split
  · split
    · trivial
    · trivial
    · rfl
    · apply (returnSlot_size debug p idx.index).bind
      intro r same
      exact same
  · trivial

theorem step_size (debug : Bool) (c : Client V P) (op : Op V P) :
    Ensures (c.step debug op) (fun r => r.2.slab.size = c.slab.size) fun _ => True := by
  cases op with
  | insert p value =>
    apply (insert_size debug p value).bind
    intro r same
    obtain ⟨answer, slab⟩ := r
    cases answer <;> exact same
  | get p idx =>
    apply (get_size idx).bind
    intro r same
    obtain ⟨found, slab⟩ := r
    cases found <;> exact same
  | remove p idx =>
    apply (remove_size debug p idx).bind
    intro r same
    exact same
  | drop p position =>
    simp only [Client.step]
    split
    · rfl
    · apply (dropReference_size debug p _).bind
      intro r same
      exact same

end Size

/-- The slot is live: allocated, or removed while still referenced. -/
def Lifecycle.InUse (l : Lifecycle) : Prop := l.state = .allocated ∨ l.state = .zombie ∧ 0 < l.refcount

/-- Every slot is live, on the global list or on the list of one processor, and only one of these. -/
structure Accounted (s : Slab V P) (cells : List Nat) (locals : P → List Nat) : Prop where
  globalChain : Linked globalCell s.next s.head cells
  localChain : ∀ p, Linked localCell s.next ((s.heads p).getD EMPTY) (locals p)
  globalNodup : cells.Nodup
  localNodup : ∀ p, (locals p).Nodup
  inside : (∀ i ∈ cells, i < s.size) ∧ ∀ p, ∀ i ∈ locals p, i < s.size
  once : ∀ i < s.size,
    ((s.lifecycle i).InUse ∧ i ∉ cells ∧ ∀ p, i ∉ locals p) ∨
      (¬ (s.lifecycle i).InUse ∧ i ∈ cells ∧ ∀ p, i ∉ locals p) ∨
      (¬ (s.lifecycle i).InUse ∧ i ∉ cells ∧ ∃ p, i ∈ locals p ∧ ∀ q, i ∈ locals q → q = p)

theorem Filed.accounted {place : Nat → Place P} {cells : List Nat} {locals : P → List Nat} {s : Slab V P}
    (filed : Filed place cells locals s)
    (referenced : ∀ i < s.size, (s.lifecycle i).state = .zombie → 0 < (s.lifecycle i).refcount) :
    Accounted s cells locals := by
  have shelves := filed.shelves
  refine ⟨shelves.globalLinked, shelves.localLinked, shelves.globalNodup, shelves.localNodup, ⟨?_, ?_⟩, ?_⟩
  · intro i member
    exact ((shelves.mem_global i).mp member).1
  · intro p i member
    exact ((shelves.mem_local p i).mp member).1
  · intro i inside
    have unused : (s.lifecycle i).state = .unallocated → ¬ (s.lifecycle i).InUse := by
      intro free
      simp [Lifecycle.InUse, free]
    have listed := filed.listed i inside
    have used := filed.used i inside
    simp only [shelves.mem_global i, shelves.mem_local _ i, inside, true_and]
    cases here : place i with
    | inUse =>
      refine .inl ⟨?_, by simp⟩
      cases state : (s.lifecycle i).state with
      | unallocated => exact absurd state (used.mpr here)
      | allocated => exact .inl state
      | zombie => exact .inr ⟨state, referenced i inside state⟩
    | global => exact .inr (.inl ⟨unused (listed.mpr (here ▸ trivial)), rfl, nofun⟩)
    | «local» p =>
      refine .inr (.inr ⟨unused (listed.mpr (here ▸ trivial)), nofun, p, rfl, ?_⟩)
      intro q same
      exact (Place.local.inj same).symm
    | held p =>
      -- between operations no slot is in a processor's hands
      have free : (s.lifecycle i).state = .unallocated := by
        by_contra taken
        exact absurd (here.symm.trans (used.mp taken)) nofun
      have here' := listed.mp free
      rw [here] at here'
      exact here'.elim

section Runs

theorem new_size {size : Nat} {c : Client V P} (constructed : Client.new size = .ok c) : c.slab.size = size := by
  unfold Client.new Slab.new at constructed
  split at constructed
  · cases constructed
    rfl
  · cases constructed

variable [DecidableEq P] (debug : Bool)

theorem run_size {c c' : Client V P} {ops : List (Op V P)} {replies : List (Reply V)}
    (ran : exec (Client.step debug) c ops = .ok (replies, c')) : c'.slab.size = c.slab.size := by
  have preserved : ∀ (u : Unit) (d : Client V P) (op : Op V P), d.slab.size = c.slab.size → True →
      Ensures (d.step debug op) (fun r => r.2.slab.size = c.slab.size) fun _ => True := by
    intro _ d op same _
    exact (step_size debug d op).imp fun r kept => kept.trans same
  exact (exec_ensures (g := ()) (fun _ => True) (fun u _ _ => u) preserved rfl ops fun _ _ => trivial).of_ok ran

/-- An insert that fails has found the processor's list and the global list empty. -/
theorem insert_full {place : Nat → Place P} {cells : List Nat} {locals : P → List Nat} {c : Client V P}
    (shelves : Shelves c.slab.size c.slab.next c.slab.head c.slab.heads place cells locals) (p : P) (value : V) :
    Ensures (c.step debug (.insert p value))
      (fun r => ∀ returned, r.1.answer = .full returned → returned = value ∧ locals p = [] ∧ cells = [])
      fun _ => True := by
  simp only [Client.step, Slab.insert, bind_assoc]
  apply ((pop_ensures p shelves).mono (fun _ _ => id) fun _ _ => trivial).bind
  intro r popped
  obtain ⟨popped', s'⟩ := r
  rcases popped with ⟨same, empty⟩ | ⟨i, rfl, taken⟩
  · obtain ⟨rfl, rfl⟩ := Prod.mk.inj same
    intro returned answer
    exact ⟨(Answer.full.inj answer).symm, empty⟩
  · simp only
    cases s'.allocate debug p i value with
    | error reason => trivial
    | ok r =>
      intro returned answer
      cases answer

/-- After any operations every slot is accounted for once, and an insert fails only when the lists it may take a slot
    from are empty. -/
theorem no_slot_leaked {size : Nat} (positive : 0 < size) {c₀ c : Client V P}
    (constructed : Client.new size = .ok c₀) (ops : List (Op V P)) {replies : List (Reply V)}
    (ran : exec (Client.step debug) c₀ ops = .ok (replies, c)) :
    c.slab.size = size ∧ ∃ cells locals, Accounted c.slab cells locals ∧
      ∀ p value, Ensures (c.step debug (.insert p value))
        (fun r => ∀ returned, r.1.answer = .full returned → returned = value ∧ locals p = [] ∧ cells = [])
        fun _ => True := by
  have faithful := run_faithful debug positive constructed ran
  obtain ⟨place, cells, locals, filed⟩ := faithful.filed
  refine ⟨?_, cells, locals, filed.accounted fun i inside => (faithful.agrees i inside).zombie, ?_⟩
  · exact (run_size debug ran).trans (new_size constructed)
  · intro p value
    exact insert_full debug filed.shelves p value

theorem no_slot_leaked_migrated :
    ∃ (c₀ c : Client Nat Bool) (replies : List (Reply Nat)), Client.new 2 = .ok c₀ ∧
      exec (Client.step true) c₀ [.insert false 7, .insert true 8, .remove true ⟨1, 0, by decide, by decide⟩,
        .remove true ⟨1, 1, by decide, by decide⟩] = .ok (replies, c) ∧
      c.slab.size = 2 ∧ ∃ cells locals, Accounted c.slab cells locals := by
  have both : ∃ (c₀ c : Client Nat Bool) (replies : List (Reply Nat)), Client.new 2 = .ok c₀ ∧
      exec (Client.step true) c₀ [.insert false 7, .insert true 8, .remove true ⟨1, 0, by decide, by decide⟩,
        .remove true ⟨1, 1, by decide, by decide⟩] = .ok (replies, c) := ⟨_, _, _, rfl, rfl⟩
  obtain ⟨c₀, c, replies, constructed, ran⟩ := both
  obtain ⟨size, cells, locals, accounted, _⟩ := no_slot_leaked true (by decide) constructed _ ran
  exact ⟨c₀, c, replies, constructed, ran, size, cells, locals, accounted⟩

omit [DecidableEq P] in
theorem globalPop_none_iff {s : Slab V P} : (∃ s', s.globalPop = .ok (none, s')) ↔ s.head = EMPTY := by
  unfold Slab.globalPop
  repeat' split
  all_goals simp_all

theorem pop_none_iff {s : Slab V P} {p : P} :
    (∃ s', s.pop p = .ok (none, s')) ↔ (s.heads p).getD EMPTY = EMPTY ∧ s.head = EMPTY := by
  unfold Slab.pop
  by_cases empty : (s.heads p).getD EMPTY = EMPTY
  · have missed : s.localPop p = .ok (none, s) := by
      unfold Slab.localPop
      cases head : s.heads p with
      | none => rfl
      | some word =>
        rw [head, Option.getD_some] at empty
        exact if_pos empty
    rw [missed, ← globalPop_none_iff]
    exact (and_iff_right empty).symm
  · refine iff_of_false ?_ fun both => empty both.1
    intro found
    obtain ⟨s', popped⟩ := found
    cases head : s.heads p with
    | none => exact empty (by rw [head]; rfl)
    | some word =>
      rw [head, Option.getD_some] at empty
      simp only [Slab.localPop, head, if_neg empty] at popped
      split at popped
      · cases popped
      · cases popped

/-- An insert fails exactly when the processor's own list and the global list are empty. -/
theorem insert_full_iff {c : Client V P} {p : P} {value : V} :
    (∃ c', c.step debug (.insert p value) = .ok (⟨.full value, []⟩, c')) ↔
      (c.slab.heads p).getD EMPTY = EMPTY ∧ c.slab.head = EMPTY := by
  rw [← pop_none_iff]
  simp only [Client.step, Slab.insert, bind_assoc]
  cases c.slab.pop p with
  | error reason =>
    refine iff_of_false ?_ ?_ <;> intro found <;> obtain ⟨_, impossible⟩ := found <;> cases impossible
  | ok r =>
    obtain ⟨popped, s'⟩ := r
    cases popped with
    | none => exact iff_of_true ⟨_, rfl⟩ ⟨_, rfl⟩
    | some i =>
      refine iff_of_false ?_ ?_
      · intro found
        obtain ⟨c', answer⟩ := found
        simp only [Bind.bind, Except.bind] at answer
        cases taken : s'.allocate debug p i value with
        | error reason =>
          rw [taken] at answer
          cases answer
        | ok r =>
          rw [taken] at answer
          cases answer
      · intro found
        obtain ⟨s'', impossible⟩ := found
        cases impossible

omit [DecidableEq P] in
theorem Accounted.lists_empty {s : Slab V P} {cells : List Nat} {locals : P → List Nat}
    (accounted : Accounted s cells locals) (full : ∀ i < s.size, (s.lifecycle i).InUse) (p : P) :
    (s.heads p).getD EMPTY = EMPTY ∧ s.head = EMPTY := by
  have unlisted : ∀ i < s.size, i ∉ cells ∧ ∀ p, i ∉ locals p := by
    intro i inside
    rcases accounted.once i inside with used | unused | unused
    · exact used.2
    · exact absurd (full i inside) unused.1
    · exact absurd (full i inside) unused.1
  have noCells : cells = [] := by
    rw [List.eq_nil_iff_forall_not_mem]
    intro i member
    exact (unlisted i (accounted.inside.1 i member)).1 member
  have noLocals : locals p = [] := by
    rw [List.eq_nil_iff_forall_not_mem]
    intro i member
    exact (unlisted i (accounted.inside.2 p i member)).2 p member
  constructor
  · have ends := accounted.localChain p
    rw [noLocals] at ends
    by_contra listed
    simp [Linked, localCell, listed] at ends
  · have ends := accounted.globalChain
    rw [noCells] at ends
    by_contra listed
    simp [Linked, globalCell, listed] at ends

/-- An insert fails only when the slab is full, unless every free slot is on the list of another processor. -/
theorem insert_fails_when_full_iff {size : Nat} (positive : 0 < size) {c₀ c : Client V P}
    (constructed : Client.new size = .ok c₀) (ops : List (Op V P)) {replies : List (Reply V)}
    (ran : exec (Client.step debug) c₀ ops = .ok (replies, c)) (p : P) (value : V) :
    ((∃ c', c.step debug (.insert p value) = .ok (⟨.full value, []⟩, c')) ↔
        ∀ i < size, (c.slab.lifecycle i).InUse) ↔
      ((∃ i < size, ¬ (c.slab.lifecycle i).InUse) →
        (c.slab.heads p).getD EMPTY ≠ EMPTY ∨ c.slab.head ≠ EMPTY) := by
  have faithful := run_faithful debug positive constructed ran
  obtain ⟨place, cells, locals, filed⟩ := faithful.filed
  have accounted := filed.accounted fun i inside => (faithful.agrees i inside).zombie
  have same : c.slab.size = size := (run_size debug ran).trans (new_size constructed)
  have emptied := accounted.lists_empty
  rw [same] at emptied
  rw [insert_full_iff]
  constructor
  · intro correct free
    obtain ⟨i, inside, unused⟩ := free
    by_contra neither
    rw [not_or, not_not, not_not] at neither
    exact unused (correct.mp neither i inside)
  · intro condition
    refine ⟨?_, fun full => emptied full p⟩
    intro empty i inside
    by_contra unused
    rcases condition ⟨i, inside, unused⟩ with listed | listed
    · exact listed empty.1
    · exact listed empty.2

theorem insert_fails_when_full_same_processor :
    ∃ (c₀ c : Client Nat Bool) (replies : List (Reply Nat)), Client.new 1 = .ok c₀ ∧
      exec (Client.step true) c₀ [.insert false 7, .remove false ⟨1, 0, by decide, by decide⟩] = .ok (replies, c) ∧
      ((∃ c', c.step true (.insert false 8) = .ok (⟨.full 8, []⟩, c')) ↔ ∀ i < 1, (c.slab.lifecycle i).InUse) := by
  refine ⟨_, _, _, rfl, rfl, ?_⟩
  have spec := insert_fails_when_full_iff (V := Nat) (P := Bool) true (show 0 < 1 by decide) rfl
    [.insert false 7, .remove false ⟨1, 0, by decide, by decide⟩] rfl false 8
  apply spec.mpr
  intro _
  exact .inl (by decide)

/-- The only slot is free, but on the list of the processor that allocated and freed it. -/
theorem insert_fails_beside_free_slot :
    ∃ (c₀ c : Client Nat Bool) (replies : List (Reply Nat)), Client.new 1 = .ok c₀ ∧
      exec (Client.step true) c₀ [.insert false 7, .remove false ⟨1, 0, by decide, by decide⟩] = .ok (replies, c) ∧
      (∃ c', c.step true (.insert true 8) = .ok (⟨.full 8, []⟩, c')) ∧ ¬ (c.slab.lifecycle 0).InUse := by
  refine ⟨_, _, _, rfl, rfl, ⟨_, rfl⟩, ?_⟩
  intro used
  rcases used with allocated | zombie
  · cases allocated
  · cases zombie.1

end Runs

end PlatyposSlab
