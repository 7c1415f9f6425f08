import Platypos.Slab.Slab

namespace PlatyposSlab

open Outcome Chain

variable {V P : Type}

/-- Every slot has a place, and the free lists hold exactly the unallocated ones. -/
structure Filed (place : Nat → Place P) (cells : List Nat) (locals : P → List Nat) (s : Slab V P) : Prop where
  fits : s.size < 2^18
  shelves : Shelves s.size s.next s.head s.heads place cells locals
  listed : ∀ i < s.size, (s.lifecycle i).state = .unallocated ↔ (place i).Listed
  used : ∀ i < s.size, (s.lifecycle i).state ≠ .unallocated ↔ place i = .inUse

structure Popped (place : Nat → Place P) (s : Slab V P) (i : Nat) (s' : Slab V P) : Prop where
  inside : i < s.size
  listed : (place i).Listed
  same : s' = { s with head := s'.head, heads := s'.heads }
  shelves : ∃ cells locals,
    Shelves s.size s.next s'.head s'.heads (Function.update place i .inUse) cells locals

structure Returned (place : Nat → Place P) (s : Slab V P) (i : Nat) (s' : Slab V P) : Prop where
  size : s'.size = s.size
  lifecycle : s'.lifecycle = Function.update s.lifecycle i { s.lifecycle i with state := .unallocated }
  contents : s'.contents = Function.update s.contents i none
  tag : s'.tag ≤ s.tag + 1
  shelves : ∃ here cells locals, Place.Listed here ∧
    Shelves s'.size s'.next s'.head s'.heads (Function.update place i here) cells locals

section Global

variable {place : Nat → Place P} {cells : List Nat} {locals : P → List Nat} {s : Slab V P}

theorem globalPop_ensures (shelves : Shelves s.size s.next s.head s.heads place cells locals) :
    Ensures s.globalPop
      (fun r => (r = (none, s) ∧ cells = []) ∨ ∃ i, r.1 = some i ∧ Popped place s i r.2) (fun _ => False) := by
  have linked := shelves.globalLinked
  unfold Slab.globalPop
  cases cells with
  | nil =>
    have done : s.head = EMPTY := by
      by_contra more
      simp [Linked, globalCell, more] at linked
    rw [if_pos done]
    exact .inl ⟨rfl, rfl⟩
  | cons i cells =>
    have points := linked.1
    unfold globalCell at points
    split at points
    · cases points
    · rename_i more
      have top : Entry.index s.head = i := Option.some.inj points
      have member := (shelves.mem_global i).mp (by simp)
      rw [if_neg more, top, if_pos member.1]
      right
      refine ⟨i, rfl, member.1, by simp [member.2, Place.Listed], rfl, cells, locals, ?_⟩
      exact shelves.popGlobal id

theorem globalPush_ensures (shelves : Shelves s.size s.next s.head s.heads place cells locals)
    (fits : s.size < 2^18) {i : Nat} (inside : i < s.size) (unlisted : ¬ (place i).Listed) :
    Ensures (s.globalPush i)
      (fun s' => s' = { s with tag := s'.tag, next := s'.next, head := s'.head } ∧ s'.tag ≤ s.tag + 1 ∧
        Shelves s'.size s'.next s'.head s'.heads (Function.update place i .global) (i :: cells) locals)
      (fun e => e = .tagOverflow ∧ 2^46 ≤ s.tag) := by
  unfold Slab.globalPush
  rw [if_neg (by omega)]
  split
  · rename_i exhausted
    exact ⟨rfl, exhausted⟩
  · refine ⟨rfl, Nat.mod_le _ _, ?_⟩
    exact (shelves.write unlisted s.head).pushGlobal unlisted inside (globalCell_pack (by omega)) (by simp)

def Slab.cleared (s : Slab V P) (i : Nat) : Slab V P :=
  { s with
    lifecycle := Function.update s.lifecycle i { s.lifecycle i with state := .unallocated }
    contents := Function.update s.contents i none
    processor := Function.update s.processor i none }

theorem clear_eq (debug : Bool) {i : Nat} {value : V} (contents : s.contents i = some value)
    (none : (s.lifecycle i).refcount = 0) : s.clear debug i = .ok (s.processor i, value, s.cleared i) := by
  simp [Slab.clear, Slab.cleared, Lifecycle.clear_eq none, contents, Bind.bind, Except.bind, Pure.pure, Except.pure]

variable [DecidableEq P]

theorem localPop_ensures (p : P) (shelves : Shelves s.size s.next s.head s.heads place cells locals) :
    Ensures (s.localPop p)
      (fun r => (r = (none, s) ∧ locals p = []) ∨ ∃ i, r.1 = some i ∧ Popped place s i r.2) (fun _ => False) := by
  have linked := shelves.localLinked p
  unfold Slab.localPop
  cases top : s.heads p with
  | none =>
    simp only [top, Option.getD_none] at linked
    cases list : locals p with
    | nil => exact .inl ⟨rfl, rfl⟩
    | cons i rest =>
      rw [list] at linked
      have points := linked.1
      simp [localCell] at points
  | some head =>
    simp only [top, Option.getD_some] at linked
    cases list : locals p with
    | nil =>
      have done : head = EMPTY := by
        by_contra more
        simp [list, Linked, localCell, more] at linked
      simp [done]
    | cons i rest =>
      rw [list] at linked
      have points := linked.1
      unfold localCell at points
      split at points
      · cases points
      · rename_i more
        have same : head = i := Option.some.inj points
        have member := (shelves.mem_local p i).mp (by simp [list])
        subst same
        simp only [if_neg more, if_pos member.1]
        right
        exact ⟨head, rfl, member.1, by simp [member.2, Place.Listed], rfl, cells, _, shelves.popLocal list id⟩

theorem localPush_ensures (p : P) (shelves : Shelves s.size s.next s.head s.heads place cells locals)
    (fits : s.size < 2^18) {i : Nat} (inside : i < s.size) (unlisted : ¬ (place i).Listed) :
    Ensures (s.localPush p i)
      (fun s' => s' = { s with next := s'.next, heads := s'.heads } ∧
        Shelves s'.size s'.next s'.head s'.heads (Function.update place i (.local p)) cells
          (Function.update locals p (i :: locals p)))
      (fun _ => False) := by
  unfold Slab.localPush
  rw [if_pos inside]
  refine ⟨rfl, ?_⟩
  exact (shelves.write unlisted _).pushLocal unlisted inside (localCell_of_lt (by omega)) (by simp)

theorem pop_ensures (p : P) (shelves : Shelves s.size s.next s.head s.heads place cells locals) :
    Ensures (s.pop p)
      (fun r => (r = (none, s) ∧ locals p = [] ∧ cells = []) ∨ ∃ i, r.1 = some i ∧ Popped place s i r.2)
      (fun _ => False) := by
  apply (localPop_ensures p shelves).bind
  intro r popped
  obtain ⟨popped', s'⟩ := r
  rcases popped with ⟨same, none⟩ | ⟨i, rfl, taken⟩
  · obtain ⟨rfl, rfl⟩ := Prod.mk.inj same
    apply (globalPop_ensures shelves).imp
    intro r popped
    rcases popped with ⟨same, empty⟩ | taken
    · exact .inl ⟨same, none, empty⟩
    · exact .inr taken
  · exact .inr ⟨i, rfl, taken⟩

theorem returnSlot_ensures (debug : Bool) (p : P)
    (shelves : Shelves s.size s.next s.head s.heads place cells locals) (fits : s.size < 2^18) {i : Nat}
    (inside : i < s.size) (unlisted : ¬ (place i).Listed) {value : V} (contents : s.contents i = some value)
    (none : (s.lifecycle i).refcount = 0) :
    Ensures (s.returnSlot debug p i) (fun r => r.1 = value ∧ Returned place s i r.2)
      (fun e => e = .tagOverflow ∧ 2^46 ≤ s.tag) := by
  have filed : Shelves (s.cleared i).size (s.cleared i).next (s.cleared i).head (s.cleared i).heads place cells locals :=
    shelves
  have same : s.returnSlot debug p i = if s.processor i = some p
      then (do let s ← (s.cleared i).localPush p i; return (value, s))
      else (do let s ← (s.cleared i).globalPush i; return (value, s)) := by
    simp only [Slab.returnSlot, clear_eq debug contents none, Bind.bind, Except.bind]
  rw [same]
  split
  · apply ((localPush_ensures p filed fits inside unlisted).mono (fun a _ => id) fun _ => False.elim).bind
    intro s' pushed
    obtain ⟨same, shelves'⟩ := pushed
    refine ⟨rfl, by rw [same]; rfl, by rw [same]; rfl, by rw [same]; rfl, by rw [same]; exact Nat.le_succ _, ?_⟩
    exact ⟨.local p, _, _, trivial, shelves'⟩
  · apply (globalPush_ensures filed fits inside unlisted).bind
    intro s' pushed
    obtain ⟨same, tag, shelves'⟩ := pushed
    refine ⟨rfl, by rw [same]; rfl, by rw [same]; rfl, by rw [same]; rfl, tag, ?_⟩
    exact ⟨.global, _, _, trivial, shelves'⟩

end Global

end PlatyposSlab
