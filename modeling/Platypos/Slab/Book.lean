import Mathlib.Data.Multiset.Filter
import Platypos.Slab.Placement

namespace PlatyposSlab

variable {V P : Type}

/-- The map from indices to values that the slab stands for, as the history of its operations: what was
    inserted, what was removed, and what was dropped. -/
structure Book (V : Type) where
  issued : List (Idx × V)
  removed : List Idx
  dropped : Multiset V

namespace Book

def empty : Book V := ⟨[], [], 0⟩

def record (b : Book V) (op : Op V P) (reply : Reply V) : Book V where
  issued := match op, reply.answer with
    | .insert _ value, .inserted idx => (idx, value) :: b.issued
    | _, _ => b.issued
  removed := match op, reply.answer with
    | .remove _ idx, .removed true => idx :: b.removed
    | _, _ => b.removed
  dropped := b.dropped + reply.drops

def Live (b : Book V) (idx : Idx) : Prop := idx ∈ b.issued.map Prod.fst ∧ idx ∉ b.removed

instance (b : Book V) (idx : Idx) : Decidable (b.Live idx) := inferInstanceAs (Decidable (_ ∧ _))

/-- The values that have been removed and to which no reference is left. -/
def gone (b : Book V) (refs : List Idx) : Multiset V :=
  ((b.issued : Multiset (Idx × V)).filter fun e => e.1 ∈ b.removed ∧ e.1 ∉ refs).map Prod.snd

theorem gone_congr {b b' : Book V} {refs refs' : List Idx} (issued : b'.issued = b.issued)
    (same : ∀ e ∈ b.issued, (e.1 ∈ b'.removed ∧ e.1 ∉ refs') ↔ (e.1 ∈ b.removed ∧ e.1 ∉ refs)) :
    b'.gone refs' = b.gone refs := by
  unfold gone
  rw [issued, Multiset.filter_congr same]

theorem gone_gain {b b' : Book V} {refs refs' : List Idx} (issued : b'.issued = b.issued)
    (keys : (b.issued.map Prod.fst).Nodup) {e : Idx × V} (member : e ∈ b.issued)
    (before : ¬ (e.1 ∈ b.removed ∧ e.1 ∉ refs)) (after : e.1 ∈ b'.removed ∧ e.1 ∉ refs')
    (others : ∀ idx, idx ≠ e.1 → ((idx ∈ b'.removed ∧ idx ∉ refs') ↔ (idx ∈ b.removed ∧ idx ∉ refs))) :
    b'.gone refs' = e.2 ::ₘ b.gone refs := by
  obtain ⟨left, right, split⟩ := List.append_of_mem member
  have alone : ∀ e' ∈ (left ++ right : List (Idx × V)), e'.1 ≠ e.1 := by
    intro e' member' same
    rw [split, List.map_append, List.map_cons] at keys
    have fresh := (List.nodup_cons.mp (List.nodup_middle.mp keys)).1
    rw [← List.map_append, ← same] at fresh
    exact fresh (List.mem_map_of_mem member')
  have whole : (b.issued : Multiset (Idx × V)) = e ::ₘ ((left ++ right : List (Idx × V)) : Multiset (Idx × V)) := by
    rw [split, Multiset.cons_coe, Multiset.coe_eq_coe]
    exact List.perm_middle
  unfold gone
  rw [issued, whole, Multiset.filter_cons_of_pos (p := fun x : Idx × V => x.1 ∈ b'.removed ∧ x.1 ∉ refs') _ after,
    Multiset.filter_cons_of_neg (p := fun x : Idx × V => x.1 ∈ b.removed ∧ x.1 ∉ refs) _ before, Multiset.map_cons]
  congr 2
  apply Multiset.filter_congr
  intro e' member'
  exact others e'.1 (alone e' member')

end Book

def heldAt (refs : List Idx) (i : Nat) : Multiset Nat :=
  ((refs : Multiset Idx).filter fun idx => idx.index = i).map Idx.generation

theorem heldAt_cons (idx : Idx) (refs : List Idx) (i : Nat) :
    heldAt (idx :: refs) i = if idx.index = i then idx.generation ::ₘ heldAt refs i else heldAt refs i := by
  unfold heldAt
  rw [← Multiset.cons_coe]
  by_cases same : idx.index = i <;> simp [same]

theorem heldAt_perm {refs refs' : List Idx} (perm : refs.Perm refs') (i : Nat) : heldAt refs i = heldAt refs' i := by
  rw [heldAt, Multiset.coe_eq_coe.mpr perm, heldAt]

theorem mem_heldAt {refs : List Idx} {idx : Idx} (held : idx ∈ refs) :
    idx.generation ∈ heldAt refs idx.index := by
  apply Multiset.mem_map_of_mem
  rw [Multiset.mem_filter]
  exact ⟨held, rfl⟩

theorem Lifecycle.Counted.unreferenced_iff {l : Lifecycle} {refs : List Idx} {idx : Idx}
    (counted : l.Counted (heldAt refs idx.index)) (current : l.generation = idx.generation) :
    l.refcount = 0 ↔ idx ∉ refs := by
  constructor
  · intro none held
    have member := mem_heldAt held
    rw [counted.eq_zero none] at member
    simp at member
  · intro absent
    rw [counted.count, Multiset.card_eq_zero]
    apply Multiset.eq_zero_of_forall_notMem
    intro generation held
    obtain ⟨idx', member, same⟩ := Multiset.mem_map.mp held
    obtain ⟨found, index⟩ := Multiset.mem_filter.mp member
    have match_ := counted.current generation held
    have this : idx' = idx := Idx.eq_of_fields (by omega) index
    exact absent (this ▸ found)

/-- What the slot's lifecycle and contents say agrees with the book. -/
structure Agrees (i : Nat) (l : Lifecycle) (contents : Option V) (refs : List Idx) (b : Book V) : Prop where
  counted : l.Counted (heldAt refs i)
  unreferenced : l.state = .unallocated → l.refcount = 0
  zombie : l.state = .zombie → 0 < l.refcount
  allocations : l.generation = b.issued.countP (fun e => decide (e.1.index = i))
  past : ∀ e ∈ b.issued, e.1.index = i → e.1.generation ≤ l.generation
  live : ∀ idx : Idx, idx.index = i → (b.Live idx ↔ l.state = .allocated ∧ l.generation = idx.generation)
  current : l.state ≠ .unallocated →
    ∃ e ∈ b.issued, e.1.index = i ∧ e.1.generation = l.generation ∧ contents = some e.2

theorem Agrees.removed_iff {l : Lifecycle} {contents : Option V} {refs : List Idx} {b : Book V} {idx : Idx}
    (agrees : Agrees idx.index l contents refs b) (issued : idx ∈ b.issued.map Prod.fst)
    (current : l.generation = idx.generation) (used : l.state ≠ .unallocated) :
    idx ∈ b.removed ↔ l.state = .zombie := by
  have live := agrees.live idx rfl
  simp only [Book.Live, issued, true_and, current, and_true] at live
  rw [← not_iff_not, live]
  cases state : l.state with
  | unallocated => exact absurd state used
  | allocated => simp
  | zombie => simp

theorem Agrees.elsewhere {i : Nat} {l : Lifecycle} {contents : Option V} {refs refs' : List Idx} {b b' : Book V}
    (agrees : Agrees i l contents refs b) (held : heldAt refs' i = heldAt refs i)
    (issued : b'.issued.filter (fun e => decide (e.1.index = i)) = b.issued.filter fun e => decide (e.1.index = i))
    (removed : ∀ idx : Idx, idx.index = i → (idx ∈ b'.removed ↔ idx ∈ b.removed)) : Agrees i l contents refs' b' := by
  have same : ∀ e : Idx × V, e.1.index = i → (e ∈ b'.issued ↔ e ∈ b.issued) := by
    intro e here
    have both := congrArg (fun list => e ∈ list) issued
    simpa [List.mem_filter, here] using both
  have live : ∀ idx : Idx, idx.index = i → (b'.Live idx ↔ b.Live idx) := by
    intro idx here
    unfold Book.Live
    rw [removed idx here]
    apply and_congr_left'
    simp only [List.mem_map]
    apply exists_congr
    intro e
    apply and_congr_left
    intro key
    exact same e (by rw [key, here])
  refine ⟨held ▸ agrees.counted, agrees.unreferenced, agrees.zombie, ?_, ?_, ?_, ?_⟩
  · rw [agrees.allocations, List.countP_eq_length_filter, List.countP_eq_length_filter, issued]
  · intro e member here
    exact agrees.past e ((same e here).mp member) here
  · intro idx here
    rw [live idx here]
    exact agrees.live idx here
  · intro used
    obtain ⟨e, member, here, rest⟩ := agrees.current used
    exact ⟨e, (same e here).mpr member, here, rest⟩

end PlatyposSlab
