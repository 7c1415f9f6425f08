import Platypos.Slab.Book

namespace PlatyposSlab

open Outcome CasLoop

variable {V P : Type}

/-- The slab stands for the book. -/
structure Faithful (c : Client V P) (b : Book V) : Prop where
  filed : ∃ place cells locals, Filed place cells locals c.slab
  agrees : ∀ i < c.slab.size, Agrees i (c.slab.lifecycle i) (c.slab.contents i) c.refs b
  inside : ∀ idx ∈ c.refs, idx.index < c.slab.size
  issuedInside : ∀ e ∈ b.issued, e.1.index < c.slab.size
  keys : (b.issued.map Prod.fst).Nodup
  removed : ∀ idx ∈ b.removed, idx ∈ b.issued.map Prod.fst
  tag : c.slab.tag ≤ b.dropped.card
  dropped : b.dropped = b.gone c.refs

theorem Filed.changed {place : Nat → Place P} {cells cells' : List Nat} {locals locals' : P → List Nat}
    {s s' : Slab V P} (filed : Filed place cells locals s) {i : Nat} {l : Lifecycle} {here : Place P}
    (size : s'.size = s.size) (lifecycle : s'.lifecycle = Function.update s.lifecycle i l)
    (shelves : Shelves s'.size s'.next s'.head s'.heads (Function.update place i here) cells' locals')
    (listed : l.state = .unallocated ↔ here.Listed) (used : l.state ≠ .unallocated ↔ here = .inUse) :
    Filed (Function.update place i here) cells' locals' s' := by
  refine ⟨size ▸ filed.fits, shelves, ?_, ?_⟩
  · intro j inside
    rw [lifecycle]
    by_cases same : j = i
    · subst same
      rwa [Function.update_self, Function.update_self]
    · rw [Function.update_of_ne same, Function.update_of_ne same]
      exact filed.listed j (size ▸ inside)
  · intro j inside
    rw [lifecycle]
    by_cases same : j = i
    · subst same
      rwa [Function.update_self, Function.update_self]
    · rw [Function.update_of_ne same, Function.update_of_ne same]
      exact filed.used j (size ▸ inside)

theorem Filed.kept {place : Nat → Place P} {cells : List Nat} {locals : P → List Nat} {s : Slab V P}
    (filed : Filed place cells locals s) {i : Nat} {l : Lifecycle} (inside : i < s.size)
    (before : (s.lifecycle i).state ≠ .unallocated) (after : l.state ≠ .unallocated) :
    Filed place cells locals { s with lifecycle := Function.update s.lifecycle i l } := by
  have here : place i = .inUse := (filed.used i inside).mp before
  have moved : Function.update place i .inUse = place := by rw [← here, Function.update_eq_self]
  have shelves : Shelves s.size s.next s.head s.heads (Function.update place i .inUse) cells locals := by
    rw [moved]
    exact filed.shelves
  rw [← moved]
  exact filed.changed rfl rfl shelves (by simp [after, Place.Listed]) (by simp [after])

section Agreement

variable {i : Nat} {l new : Lifecycle} {contents : Option V} {refs refs' : List Idx} {b b' : Book V} {idx : Idx}

theorem Agrees.fresh (agrees : Agrees i l contents refs b) (index : idx.index = i)
    (later : l.generation < idx.generation) : idx ∉ b.issued.map Prod.fst := by
  intro member
  obtain ⟨e, found, rfl⟩ := List.mem_map.mp member
  have past := agrees.past e found index
  omega

theorem Agrees.inserted (agrees : Agrees i l contents refs b) (removed : ∀ idx ∈ b.removed, idx ∈ b.issued.map Prod.fst)
    (state : l.state = .unallocated) (generation : new.generation = l.generation + 1)
    (refcount : new.refcount = l.refcount) (allocated : new.state = .allocated) {value : V}
    (index : idx.index = i) (current : idx.generation = new.generation) (issued : b'.issued = (idx, value) :: b.issued)
    (same : b'.removed = b.removed) : Agrees i new (some value) refs b' := by
  have none := agrees.unreferenced state
  have fresh : idx ∉ b.issued.map Prod.fst := agrees.fresh index (by omega)
  refine ⟨⟨?_, ?_⟩, ?_, ?_, ?_, ?_, ?_, ?_⟩
  · rw [refcount]
    exact agrees.counted.count
  · rw [agrees.counted.eq_zero none]
    simp
  · simp [allocated]
  · simp [allocated]
  · rw [generation, issued, List.countP_cons, agrees.allocations]
    simp [index]
  · rw [issued]
    intro e member here
    rcases List.mem_cons.mp member with rfl | member
    · exact le_of_eq current
    · have past := agrees.past e member here
      omega
  · intro idx' here
    rw [Book.Live, issued, same, List.map_cons, List.mem_cons, allocated]
    constructor
    · intro live
      refine ⟨rfl, ?_⟩
      rcases live.1 with rfl | member
      · exact current.symm
      · have impossible := (agrees.live idx' here).mp ⟨member, live.2⟩
        rw [state] at impossible
        cases impossible.1
    · intro match_
      have this : idx' = idx := Idx.eq_of_fields (by omega) (here.trans index.symm)
      subst this
      exact ⟨.inl rfl, fun member => fresh (removed _ member)⟩
  · intro _
    exact ⟨(idx, value), by simp [issued], index, current, rfl⟩

theorem Agrees.acquired (agrees : Agrees i l contents refs b) (index : idx.index = i)
    (proposed : l.acquireReference idx.generation = .propose new ()) : Agrees i new contents (idx :: refs) b := by
  obtain ⟨_, state, generation, state', _⟩ := Lifecycle.acquireReference_propose proposed
  refine ⟨?_, ?_, ?_, ?_, ?_, ?_, ?_⟩
  · rw [heldAt_cons, if_pos index]
    exact agrees.counted.acquired proposed
  · simp [state']
  · simp [state']
  · rw [generation]
    exact agrees.allocations
  · rw [generation]
    exact agrees.past
  · intro idx' here
    rw [generation, state', agrees.live idx' here, state]
  · rw [generation]
    exact fun _ => agrees.current (by simp [state])

theorem Agrees.released {last : Bool} (agrees : Agrees i l contents refs b) (index : idx.index = i)
    (perm : refs.Perm (idx :: refs')) (proposed : l.releaseReference idx.generation = .propose new last) :
    new.Counted (heldAt refs' i) ∧ (last = false → Agrees i new contents refs' b) := by
  obtain ⟨_, state, generation, state', _, lastly⟩ := Lifecycle.releaseReference_propose proposed
  have held : heldAt refs i = idx.generation ::ₘ heldAt refs' i := by
    rw [heldAt_perm perm, heldAt_cons, if_pos index]
  have counted : new.Counted (heldAt refs' i) := by
    have fewer := agrees.counted.released (by simp [held]) proposed
    rwa [held, Multiset.erase_cons_head] at fewer
  refine ⟨counted, fun more => ⟨counted, ?_, ?_, ?_, ?_, ?_, ?_⟩⟩
  · rw [state']
    exact fun unallocated => absurd unallocated state
  · rw [state']
    intro zombie
    apply Nat.pos_of_ne_zero
    intro none
    have done := lastly.mpr ⟨zombie, none⟩
    rw [more] at done
    cases done
  · rw [generation]
    exact agrees.allocations
  · rw [generation]
    exact agrees.past
  · rw [generation, state']
    exact agrees.live
  · rw [generation, state']
    exact agrees.current

theorem Agrees.dead_of_removed (agrees : Agrees i l contents refs b) (index : idx.index = i)
    (current : l.generation = idx.generation) (issued : b'.issued = b.issued) (removed : b'.removed = idx :: b.removed)
    (other : Idx) (here : other.index = i) : ¬ b'.Live other := by
  intro live
  rw [Book.Live, issued, removed, List.mem_cons, not_or] at live
  have match_ := (agrees.live other here).mp ⟨live.1, live.2.2⟩
  exact live.2.1 (Idx.eq_of_fields (by omega) (here.trans index.symm))

theorem Agrees.zombified (agrees : Agrees i l contents refs b) (index : idx.index = i)
    (proposed : l.markUnallocated idx.generation = .propose new false) (issued : b'.issued = b.issued)
    (removed : b'.removed = idx :: b.removed) : Agrees i new contents refs b' := by
  obtain ⟨current, state, generation, refcount, state', zero⟩ := Lifecycle.markUnallocated_propose proposed
  refine ⟨agrees.counted.of_same generation refcount, ?_, ?_, ?_, ?_, ?_, ?_⟩
  · simp [state']
  · intro _
    rw [refcount]
    apply Nat.pos_of_ne_zero
    simpa using zero
  · rw [generation, issued]
    exact agrees.allocations
  · rw [generation, issued]
    exact agrees.past
  · intro idx' here
    exact iff_of_false (agrees.dead_of_removed index current issued removed idx' here) (by simp [state'])
  · rw [generation, issued]
    exact fun _ => agrees.current (by simp [state])

theorem Agrees.cleared (agrees : Agrees i l contents refs b) (state : new.state = .unallocated)
    (generation : new.generation = l.generation) (counted : new.Counted (heldAt refs' i)) (none : new.refcount = 0)
    (issued : b'.issued = b.issued) (dead : ∀ idx : Idx, idx.index = i → ¬ b'.Live idx) :
    Agrees i new Option.none refs' b' := by
  refine ⟨counted, fun _ => none, ?_, ?_, ?_, ?_, ?_⟩
  · simp [state]
  · rw [generation, issued]
    exact agrees.allocations
  · rw [generation, issued]
    exact agrees.past
  · intro idx here
    exact iff_of_false (dead idx here) (by simp [state])
  · exact fun used => absurd state used

end Agreement

end PlatyposSlab
