import Platypos.Slab.Refinement

namespace PlatyposSlab

open Outcome CasLoop

variable {V P : Type}

theorem Agrees.spread {s : Slab V P} {refs refs' : List Idx} {b b' : Book V}
    (agrees : ∀ j < s.size, Agrees j (s.lifecycle j) (s.contents j) refs b) {i : Nat} {l : Lifecycle}
    {contents : Option V} (here : Agrees i l contents refs' b') (held : ∀ j, j ≠ i → heldAt refs' j = heldAt refs j)
    (issued : ∀ j, j ≠ i →
      b'.issued.filter (fun e => decide (e.1.index = j)) = b.issued.filter fun e => decide (e.1.index = j))
    (removed : ∀ idx : Idx, idx.index ≠ i → (idx ∈ b'.removed ↔ idx ∈ b.removed)) (j : Nat) (inside : j < s.size) :
    Agrees j (Function.update s.lifecycle i l j) (Function.update s.contents i contents j) refs' b' := by
  by_cases same : j = i
  · subst same
    rwa [Function.update_self, Function.update_self]
  · rw [Function.update_of_ne same, Function.update_of_ne same]
    apply (agrees j inside).elsewhere (held j same) (issued j same)
    intro idx index
    exact removed idx (index ▸ same)

/-- The answers the book calls for. -/
def Answers (b : Book V) : Op V P → Answer V → Prop
  | .insert _ value, answer => (∃ idx, answer = .inserted idx ∧ idx ∉ b.issued.map Prod.fst) ∨ answer = .full value
  | .get _ idx, answer => answer = .got (decide (b.Live idx))
  | .remove _ idx, answer => answer = .removed (decide (b.Live idx))
  | .drop _ _, answer => answer = .released

/-- The panics that remain: a counter of the slot that is allocated or referenced is used up, or the tag of the
    global list is. -/
def Exhausted [DecidableEq P] (c : Client V P) (b : Book V) (op : Op V P) (reason : Panic) : Prop :=
  (reason = .generationOverflow ∧ ∃ p value i s, op = .insert p value ∧ c.slab.pop p = .ok (some i, s) ∧
      2^46 ≤ b.issued.countP (fun e => decide (e.1.index = i)) + 1) ∨
    (reason = .refcountOverflow ∧ ∃ p idx, op = .get p idx ∧ 2^16 ≤ (heldAt c.refs idx.index).card + 1) ∨
    (reason = .tagOverflow ∧ 2^46 ≤ b.dropped.card)

section Operations

variable {c : Client V P} {b : Book V} (debug : Bool) (faithful : Faithful c b)

include faithful

theorem Faithful.entry {idx : Idx} (held : idx ∈ c.refs) :
    ∃ value, (idx, value) ∈ b.issued ∧ c.slab.contents idx.index = some value ∧
      (c.slab.lifecycle idx.index).state ≠ .unallocated := by
  have agrees := faithful.agrees idx.index (faithful.inside idx held)
  have member := mem_heldAt held
  have used : (c.slab.lifecycle idx.index).state ≠ .unallocated := by
    intro unallocated
    have none := agrees.counted.eq_zero (agrees.unreferenced unallocated)
    rw [none] at member
    simp at member
  obtain ⟨⟨idx', value⟩, found, index, generation, contents⟩ := agrees.current used
  have same : idx' = idx :=
    Idx.eq_of_fields (generation.trans (agrees.counted.current _ member).symm) index
  subst same
  exact ⟨value, found, contents, used⟩

theorem Faithful.live_iff (idx : Idx) :
    b.Live idx ↔ idx.index < c.slab.size ∧ (c.slab.lifecycle idx.index).state = .allocated ∧
      (c.slab.lifecycle idx.index).generation = idx.generation := by
  constructor
  · intro live
    obtain ⟨e, member, rfl⟩ := List.mem_map.mp live.1
    have inside := faithful.issuedInside e member
    exact ⟨inside, ((faithful.agrees e.1.index inside).live e.1 rfl).mp live⟩
  · intro facts
    exact ((faithful.agrees idx.index facts.1).live idx rfl).mpr facts.2

theorem Faithful.returned {place : Nat → Place P} {cells : List Nat} {locals : P → List Nat} {i : Nat}
    {new : Lifecycle} {s' : Slab V P} {refs' : List Idx} {b' : Book V} (filed : Filed place cells locals c.slab)
    (inside : i < c.slab.size)
    (returned : Returned place { c.slab with lifecycle := Function.update c.slab.lifecycle i new } i s')
    (generation : new.generation = (c.slab.lifecycle i).generation) (counted : new.Counted (heldAt refs' i))
    (none : new.refcount = 0) (issued : b'.issued = b.issued) (dead : ∀ idx : Idx, idx.index = i → ¬ b'.Live idx)
    (held : ∀ j, j ≠ i → heldAt refs' j = heldAt c.refs j) (refs : ∀ idx ∈ refs', idx.index < c.slab.size)
    (elsewhere : ∀ idx : Idx, idx.index ≠ i → (idx ∈ b'.removed ↔ idx ∈ b.removed))
    (removed : ∀ idx ∈ b'.removed, idx ∈ b.issued.map Prod.fst) {value : V}
    (gained : b'.gone refs' = value ::ₘ b.gone c.refs) (dropped : b'.dropped = b.dropped + [value]) :
    Faithful ⟨s', refs'⟩ b' := by
  have size := returned.size
  have lifecycle := returned.lifecycle
  have contents := returned.contents
  simp only [Function.update_idem, Function.update_self] at size lifecycle contents
  obtain ⟨here, cells', locals', listed, shelves⟩ := returned.shelves
  refine ⟨⟨_, _, _, filed.changed size lifecycle shelves (by simp [listed]) ?_⟩, ?_, ?_, ?_, ?_, ?_, ?_, ?_⟩
  · refine iff_of_false (by simp) ?_
    intro same
    rw [same] at listed
    exact listed
  · have cleared : Agrees i { new with state := .unallocated } Option.none refs' b' :=
      (faithful.agrees i inside).cleared rfl generation (counted.of_same rfl rfl) none issued dead
    have spread := Agrees.spread faithful.agrees cleared held (fun _ _ => by rw [issued]) elsewhere
    intro j inside'
    simp only [lifecycle, contents]
    exact spread j (size ▸ inside')
  · intro idx member
    rw [size]
    exact refs idx member
  · intro e member
    rw [size]
    exact faithful.issuedInside e (issued ▸ member)
  · rw [issued]
    exact faithful.keys
  · rw [issued]
    exact removed
  · have before := faithful.tag
    have after := returned.tag
    simp only [dropped, Multiset.card_add, Multiset.coe_card, List.length_singleton] at after ⊢
    omega
  · rw [dropped, gained, ← faithful.dropped, Multiset.coe_singleton, Multiset.add_comm, Multiset.singleton_add]

theorem Faithful.inserted {place : Nat → Place P} {cells : List Nat} {locals : P → List Nat} {i : Nat} {s s' : Slab V P}
    {new : Lifecycle} {idx : Idx} {value : V} {b' : Book V} (filed : Filed place cells locals c.slab)
    (taken : Popped place c.slab i s) (generation : new.generation = (c.slab.lifecycle i).generation + 1)
    (refcount : new.refcount = (c.slab.lifecycle i).refcount) (allocated : new.state = .allocated)
    (index : idx.index = i) (current : idx.generation = new.generation)
    (changed : s' = { s with
      lifecycle := Function.update s.lifecycle i new
      contents := Function.update s.contents i (some value)
      processor := s'.processor })
    (issued : b'.issued = (idx, value) :: b.issued) (removed : b'.removed = b.removed)
    (dropped : b'.dropped = b.dropped) :
    Faithful ⟨s', c.refs⟩ b' := by
  have state := (filed.listed i taken.inside).mpr taken.listed
  obtain ⟨cells', locals', shelves⟩ := taken.shelves
  have agrees := faithful.agrees i taken.inside
  have fresh : idx ∉ b.issued.map Prod.fst := agrees.fresh index (by omega)
  have size : s'.size = c.slab.size := by rw [changed, taken.same]
  have lifecycle : s'.lifecycle = Function.update c.slab.lifecycle i new := by rw [changed, taken.same]
  have contents : s'.contents = Function.update c.slab.contents i (some value) := by rw [changed, taken.same]
  have tag : s'.tag = c.slab.tag := by rw [changed, taken.same]
  have shelves' : Shelves s'.size s'.next s'.head s'.heads (Function.update place i .inUse) cells' locals' := by
    rw [changed, taken.same]
    exact shelves
  refine ⟨⟨_, _, _, filed.changed size lifecycle shelves' ?_ ?_⟩, ?_, ?_, ?_, ?_, ?_, ?_, ?_⟩
  · simp [allocated, Place.Listed]
  · simp [allocated]
  · have inserted := agrees.inserted faithful.removed state generation refcount allocated index current issued removed
    have spread := Agrees.spread faithful.agrees inserted (fun _ _ => rfl)
      (fun j other => by rw [issued, List.filter_cons_of_neg (by simpa [index] using Ne.symm other)])
      (fun _ _ => by rw [removed])
    simp only [lifecycle, contents, size]
    exact spread
  · rw [size]
    exact faithful.inside
  · rw [issued, size]
    intro e member
    rcases List.mem_cons.mp member with rfl | member
    · exact index ▸ taken.inside
    · exact faithful.issuedInside e member
  · rw [issued, List.map_cons]
    exact List.nodup_cons.mpr ⟨fresh, faithful.keys⟩
  · rw [issued, removed]
    exact fun idx' member => List.mem_cons_of_mem _ (faithful.removed idx' member)
  · rw [tag, dropped]
    exact faithful.tag
  · have kept : ¬ (idx ∈ b.removed ∧ idx ∉ c.refs) := fun both => fresh (faithful.removed idx both.1)
    rw [dropped, faithful.dropped, Book.gone, Book.gone, issued, removed, ← Multiset.cons_coe,
      Multiset.filter_cons_of_neg (p := fun x : Idx × V => x.1 ∈ b.removed ∧ x.1 ∉ c.refs) _ kept]

variable [DecidableEq P]

theorem Faithful.returnSlot_ensures {place : Nat → Place P} {cells : List Nat} {locals : P → List Nat} {i : Nat}
    {new : Lifecycle} {value : V} (op : Op V P) (p : P) (filed : Filed place cells locals c.slab)
    (inside : i < c.slab.size) (used : (c.slab.lifecycle i).state ≠ .unallocated)
    (contents : c.slab.contents i = some value) (none : new.refcount = 0) :
    Ensures ({ c.slab with lifecycle := Function.update c.slab.lifecycle i new }.returnSlot debug p i)
      (fun r => r.1 = value ∧
        Returned place { c.slab with lifecycle := Function.update c.slab.lifecycle i new } i r.2)
      (Exhausted c b op) := by
  have unlisted : ¬ (place i).Listed := by
    rw [(filed.used i inside).mp used]
    exact id
  have cleared := PlatyposSlab.returnSlot_ensures
    (s := { c.slab with lifecycle := Function.update c.slab.lifecycle i new }) debug p filed.shelves filed.fits inside
    unlisted contents (by simpa using none)
  apply cleared.mono fun _ _ => id
  rintro reason ⟨overflow, full⟩
  exact .inr (.inr ⟨overflow, Nat.le_trans full faithful.tag⟩)

theorem get_ensures (p : P) (idx : Idx) :
    Ensures (c.step debug (.get p idx))
      (fun r => Faithful r.2 (b.record (.get p idx) r.1) ∧ Answers b (.get p idx) r.1.answer)
      (Exhausted c b (.get p idx)) := by
  have same : ∀ found : Bool, b.record (.get p idx) ⟨.got found, []⟩ = b := by
    intro found
    simp [Book.record]
  have live := faithful.live_iff idx
  simp only [Client.step, Slab.get]
  split
  · rename_i inside
    have agrees := faithful.agrees idx.index inside
    cases tried : (c.slab.lifecycle idx.index).acquireReference idx.generation with
    | refuse error =>
      have dead : ¬ b.Live idx := by
        rw [live]
        exact fun facts => Lifecycle.acquireReference_refuse tried facts.2
      exact ⟨by rw [same]; exact faithful, by simp [Answers, dead]⟩
    | panic reason =>
      obtain ⟨overflow, full⟩ := Lifecycle.acquireReference_panic tried
      refine .inr (.inl ⟨overflow, p, idx, rfl, ?_⟩)
      rwa [← agrees.counted.count]
    | propose new result =>
      obtain ⟨generation, state, same', state', _⟩ := Lifecycle.acquireReference_propose tried
      have alive : b.Live idx := live.mpr ⟨inside, state, generation⟩
      refine ⟨?_, by simp [Answers, alive]⟩
      rw [same]
      obtain ⟨place, cells, locals, filed⟩ := faithful.filed
      refine ⟨⟨place, cells, locals, ?_⟩, ?_, ?_, faithful.issuedInside, faithful.keys, faithful.removed,
        faithful.tag, ?_⟩
      · exact filed.kept inside (by simp [state]) (by simp [state'])
      · have spread := Agrees.spread faithful.agrees (agrees.acquired rfl tried)
          (fun j other => by rw [heldAt_cons, if_neg (Ne.symm other)]) (fun _ _ => rfl) (fun _ _ => Iff.rfl)
        intro j inside'
        have here := spread j inside'
        rwa [Function.update_eq_self] at here
      · intro idx' member
        rcases List.mem_cons.mp member with rfl | member
        · exact inside
        · exact faithful.inside idx' member
      · rw [faithful.dropped]
        apply (Book.gone_congr rfl _).symm
        intro e _
        by_cases this : e.1 = idx
        · simp [this, alive.2]
        · simp [this]
  · rename_i outside
    have dead : ¬ b.Live idx := fun alive => outside (live.mp alive).1
    exact ⟨by rw [same]; exact faithful, by simp [Answers, dead]⟩

theorem remove_ensures (p : P) (idx : Idx) :
    Ensures (c.step debug (.remove p idx))
      (fun r => Faithful r.2 (b.record (.remove p idx) r.1) ∧ Answers b (.remove p idx) r.1.answer)
      (Exhausted c b (.remove p idx)) := by
  have same : b.record (.remove p idx) ⟨.removed false, []⟩ = b := by simp [Book.record]
  have live := faithful.live_iff idx
  simp only [Client.step, Slab.remove]
  split
  · rename_i inside
    have agrees := faithful.agrees idx.index inside
    cases tried : (c.slab.lifecycle idx.index).markUnallocated idx.generation with
    | refuse error =>
      have dead : ¬ b.Live idx := by
        rw [live]
        exact fun facts => Lifecycle.markUnallocated_refuse tried facts.2
      exact ⟨by rw [same]; exact faithful, by simp [Answers, dead]⟩
    | panic reason => exact absurd tried Lifecycle.markUnallocated_ne_panic
    | propose new unallocated =>
      obtain ⟨generation, state, same', refcount, state', zero⟩ := Lifecycle.markUnallocated_propose tried
      have alive : b.Live idx := live.mpr ⟨inside, state, generation⟩
      obtain ⟨place, cells, locals, filed⟩ := faithful.filed
      have used : (c.slab.lifecycle idx.index).state ≠ .unallocated := by simp [state]
      obtain ⟨e, member, index, current, contents⟩ := agrees.current used
      have key : e.1 = idx := Idx.eq_of_fields (current.trans generation) index
      have unreferenced := agrees.counted.unreferenced_iff generation
      have elsewhere : ∀ other : Idx, other.index ≠ idx.index → (other ∈ idx :: b.removed ↔ other ∈ b.removed) := by
        intro other differ
        rw [List.mem_cons]
        exact or_iff_right fun this => differ (congrArg Idx.index this)
      have removed : ∀ other ∈ idx :: b.removed, other ∈ b.issued.map Prod.fst := by
        intro other member
        rcases List.mem_cons.mp member with rfl | member
        · exact alive.1
        · exact faithful.removed other member
      cases unallocated with
      | false =>
        have referenced : idx ∈ c.refs := by
          by_contra absent
          cases zero.mpr (unreferenced.mpr absent)
        refine ⟨⟨⟨place, cells, locals, filed.kept inside used (by simp [state'])⟩, ?_, faithful.inside,
          faithful.issuedInside, faithful.keys, removed, ?_, ?_⟩, by simp [Answers, alive]⟩
        · have zombified : Agrees idx.index new (c.slab.contents idx.index) c.refs
              (b.record (.remove p idx) ⟨.removed true, []⟩) := agrees.zombified rfl tried rfl rfl
          have spread := Agrees.spread faithful.agrees zombified (fun _ _ => rfl) (fun _ _ => rfl) elsewhere
          intro j inside'
          have here := spread j inside'
          rwa [Function.update_eq_self] at here
        · simpa [Book.record] using faithful.tag
        · have issued : (b.record (.remove p idx) ⟨.removed true, []⟩).issued = b.issued := rfl
          have kept : (b.record (.remove p idx) ⟨.removed true, []⟩).gone c.refs = b.gone c.refs := by
            apply Book.gone_congr issued
            intro e' _
            by_cases this : e'.1 = idx
            · simp [this, referenced]
            · simp [Book.record, this]
          rw [kept, ← faithful.dropped]
          simp [Book.record]
      | true =>
        have none : new.refcount = 0 := by
          rw [refcount]
          simpa using zero
        simp only [bind_assoc, pure_bind]
        apply (faithful.returnSlot_ensures debug (.remove p idx) p filed inside used contents none).bind
        rintro ⟨value, s'⟩ ⟨rfl, returned⟩
        refine ⟨?_, by simp [Answers, alive]⟩
        have issued : (b.record (.remove p idx) ⟨.removed true, [e.2]⟩).issued = b.issued := rfl
        have gained : (b.record (.remove p idx) ⟨.removed true, [e.2]⟩).gone c.refs = e.2 ::ₘ b.gone c.refs := by
          apply Book.gone_gain issued faithful.keys member
          · rw [key]
            exact fun both => alive.2 both.1
          · rw [key]
            exact ⟨List.mem_cons_self, unreferenced.mp (refcount ▸ none)⟩
          · intro other differ
            simp [Book.record, key ▸ differ]
        exact faithful.returned filed inside returned same' (agrees.counted.of_same same' refcount) none issued
          (agrees.dead_of_removed rfl generation issued rfl) (fun _ _ => rfl) faithful.inside elsewhere removed
          gained rfl
  · rename_i outside
    have dead : ¬ b.Live idx := fun alive => outside (live.mp alive).1
    exact ⟨by rw [same]; exact faithful, by simp [Answers, dead]⟩

theorem drop_ensures (p : P) (position : Nat) :
    Ensures (c.step debug (.drop p position))
      (fun r => Faithful r.2 (b.record (.drop p position) r.1) ∧ Answers b (.drop p position) r.1.answer)
      (Exhausted c b (.drop p position)) := by
  have same : b.record (.drop p position) ⟨.released, []⟩ = b := by simp [Book.record]
  simp only [Client.step]
  cases at_ : c.refs[position]? with
  | none => exact ⟨by rw [same]; exact faithful, rfl⟩
  | some idx =>
    obtain ⟨bound, rfl⟩ := List.getElem?_eq_some_iff.mp at_
    generalize named : c.refs[position] = idx
    have perm : c.refs.Perm (idx :: c.refs.eraseIdx position) := by
      rw [← named]
      exact (List.getElem_cons_eraseIdx_perm bound).symm
    have held : idx ∈ c.refs := perm.mem_iff.mpr List.mem_cons_self
    have inside := faithful.inside idx held
    have agrees := faithful.agrees idx.index inside
    obtain ⟨value, member, contents, used⟩ := faithful.entry held
    obtain ⟨place, cells, locals, filed⟩ := faithful.filed
    obtain ⟨new, last, tried⟩ := agrees.counted.releasable (mem_heldAt held) used
    obtain ⟨generation, _, same', state', _, lastly⟩ := Lifecycle.releaseReference_propose tried
    obtain ⟨counted, kept⟩ := agrees.released rfl perm tried
    have elsewhere : ∀ j, j ≠ idx.index → heldAt (c.refs.eraseIdx position) j = heldAt c.refs j := by
      intro j differ
      rw [heldAt_perm perm, heldAt_cons, if_neg (Ne.symm differ)]
    have inside' : ∀ idx' ∈ c.refs.eraseIdx position, idx'.index < c.slab.size := by
      intro idx' member'
      exact faithful.inside idx' (perm.mem_iff.mpr (List.mem_cons_of_mem _ member'))
    have others : ∀ idx', idx' ≠ idx → (idx' ∈ c.refs.eraseIdx position ↔ idx' ∈ c.refs) := by
      intro idx' differ
      rw [perm.mem_iff, List.mem_cons]
      exact (or_iff_right differ).symm
    have removed := agrees.removed_iff (List.mem_map_of_mem member) generation used
    have unreferenced := counted.unreferenced_iff (same'.trans generation)
    simp only [Slab.dropReference, if_pos inside, tried]
    cases last with
    | false =>
      refine ⟨⟨⟨place, cells, locals, filed.kept inside used (state' ▸ used)⟩, ?_, inside', faithful.issuedInside,
        faithful.keys, faithful.removed, ?_, ?_⟩, rfl⟩
      · have spread := Agrees.spread faithful.agrees (kept rfl) elsewhere (fun _ _ => rfl) (fun _ _ => Iff.rfl)
        intro j inside'
        have here := spread j inside'
        rw [Function.update_eq_self] at here
        rw [same]
        exact here
      · rw [same]
        exact faithful.tag
      · rw [same, faithful.dropped]
        apply (Book.gone_congr rfl _).symm
        intro e _
        by_cases this : e.1 = idx
        · have more : idx ∈ b.removed → idx ∈ c.refs.eraseIdx position := by
            rw [removed]
            intro zombie
            by_contra absent
            cases lastly.mpr ⟨zombie, unreferenced.mpr absent⟩
          rw [this]
          simpa [held] using more
        · rw [others e.1 this]
    | true =>
      obtain ⟨zombie, none⟩ := lastly.mp rfl
      simp only [bind_assoc, pure_bind]
      apply (faithful.returnSlot_ensures debug (.drop p position) p filed inside used contents none).bind
      rintro ⟨value', s'⟩ ⟨rfl, returned⟩
      have issued : (b.record (.drop p position) ⟨.released, [value']⟩).issued = b.issued := rfl
      have gained : (b.record (.drop p position) ⟨.released, [value']⟩).gone (c.refs.eraseIdx position)
          = value' ::ₘ b.gone c.refs := by
        apply Book.gone_gain issued faithful.keys member
        · exact fun both => both.2 held
        · exact ⟨removed.mpr zombie, unreferenced.mp none⟩
        · intro other differ
          rw [others other differ]
          rfl
      have dead : ∀ idx' : Idx, idx'.index = idx.index → ¬ (b.record (.drop p position) ⟨.released, [value']⟩).Live idx' := by
        intro idx' here live
        have match_ := (agrees.live idx' here).mp live
        rw [zombie] at match_
        cases match_.1
      exact ⟨faithful.returned filed inside returned same' counted none issued dead elsewhere inside'
        (fun _ _ => Iff.rfl) faithful.removed gained rfl, rfl⟩

theorem insert_ensures (p : P) (value : V) :
    Ensures (c.step debug (.insert p value))
      (fun r => Faithful r.2 (b.record (.insert p value) r.1) ∧ Answers b (.insert p value) r.1.answer)
      (Exhausted c b (.insert p value)) := by
  obtain ⟨place, cells, locals, filed⟩ := faithful.filed
  simp only [Client.step, Slab.insert, bind_assoc]
  apply ((pop_ensures p filed.shelves).mono (fun _ => And.intro) fun _ => False.elim).bind
  intro r popped
  obtain ⟨popped', s'⟩ := r
  rcases popped with ⟨ran, ⟨same, _⟩ | ⟨i, rfl, taken⟩⟩
  · obtain ⟨rfl, rfl⟩ := Prod.mk.inj same
    have same : b.record (.insert p value) ⟨.full value, []⟩ = b := by simp [Book.record]
    exact ⟨by rw [same]; exact faithful, .inr rfl⟩
  · have agrees := faithful.agrees i taken.inside
    have state := (filed.listed i taken.inside).mpr taken.listed
    have fits : i < 2^18 := Nat.lt_trans taken.inside filed.fits
    have lifecycle : s'.lifecycle = c.slab.lifecycle := by
      have same := congrArg Slab.lifecycle taken.same
      exact same
    simp only [Slab.allocate, lifecycle, bind_assoc]
    cases tried : (c.slab.lifecycle i).allocate debug with
    | error reason =>
      obtain ⟨overflow, full⟩ := Lifecycle.allocate_error (agrees.unreferenced state) tried
      refine .inl ⟨overflow, p, value, i, s', rfl, ran, ?_⟩
      rwa [← agrees.allocations]
    | ok new =>
      obtain ⟨generation, refcount, allocated⟩ := Lifecycle.allocate_ok tried
      simp only [dif_pos fits, pure_bind]
      refine ⟨?_, .inl ⟨_, rfl, agrees.fresh rfl (by simp only; omega)⟩⟩
      exact faithful.inserted filed taken generation refcount allocated rfl rfl
        (by simp only [lifecycle]) rfl rfl (by simp [Book.record])

end Operations

end PlatyposSlab
