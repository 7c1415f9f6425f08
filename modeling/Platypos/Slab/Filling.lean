import Platypos.Slab.MapView

namespace PlatyposSlab

open Exec

variable {V P : Type}

def Answer.slot : Answer V → Option (Nat × Nat)
  | .inserted idx => some (idx.index, idx.generation)
  | _ => none

/-- A slab into which `k` values were inserted since it was made: the global list holds the slots from `k` on, in
    order, and none of them was ever allocated. -/
structure InOrder (size k : Nat) (c : Client V P) : Prop where
  slots : c.slab.size = size
  heads : ∀ p, c.slab.heads p = none
  next : ∀ i, c.slab.next i = if i = size - 1 then EMPTY else i + 1
  head : c.slab.head = if k = size then EMPTY else k
  unused : ∀ i, k ≤ i → (c.slab.lifecycle i).generation = 0 ∧ (c.slab.lifecycle i).refcount = 0

theorem new_inOrder {size : Nat} (positive : 0 < size) {c : Client V P} (constructed : Client.new size = .ok c) :
    size < 2^18 ∧ InOrder size 0 c := by
  unfold Client.new Slab.new at constructed
  by_cases fits : size < 2^18
  · rw [if_pos fits] at constructed
    cases constructed
    refine ⟨fits, rfl, fun _ => rfl, fun _ => rfl, ?_, fun _ _ => ⟨rfl, rfl⟩⟩
    rw [if_neg (by omega)]
    rfl
  · rw [if_neg fits] at constructed
    cases constructed

section Steps

variable [DecidableEq P] (debug : Bool) {size k : Nat} {c : Client V P}

theorem InOrder.insert (inOrder : InOrder size k c) (fits : size < 2^18) (more : k < size) (p : P) (value : V) :
    ∃ reply c', c.step debug (.insert p value) = .ok (reply, c') ∧ reply.answer.slot = some (k, 1) ∧
      InOrder size (k + 1) c' := by
  obtain ⟨unissued, unreferenced⟩ := inOrder.unused k le_rfl
  have head : c.slab.head = Entry.pack k 0 := by
    rw [inOrder.head, if_neg (by omega), Entry.pack, Nat.zero_mul, Nat.add_zero]
  obtain ⟨idx, l, c', index, generation, _, first, _, rfl, inserted⟩ :=
    step_insert_global debug value (inOrder.heads p) head (by rw [inOrder.slots]; exact more) (by omega)
      (by omega) unreferenced
  refine ⟨_, _, inserted, ?_, inOrder.slots, inOrder.heads, inOrder.next, ?_, ?_⟩
  · simp only [Answer.slot, index, generation, first, unissued]
  · have last : k = size - 1 ↔ k + 1 = size := by omega
    simp only [inOrder.next, last]
  · intro i above
    have other : i ≠ k := by omega
    simp only [Function.update_of_ne other]
    exact inOrder.unused i (by omega)

theorem InOrder.insert_full (inOrder : InOrder size size c) (p : P) (value : V) :
    c.step debug (.insert p value) = .ok (⟨.full value, []⟩, c) := by
  have head : c.slab.head = EMPTY := by rw [inOrder.head, if_pos rfl]
  simp only [Client.step, Slab.insert, Slab.pop, Slab.localPop, inOrder.heads p, Slab.globalPop, if_pos head, Bind.bind,
    Except.bind, Pure.pure, Except.pure]

theorem InOrder.run (inOrder : InOrder size k c) (fits : size < 2^18) (inserts : List (P × V))
    (room : k + inserts.length ≤ size) :
    ∃ replies c', exec (Client.step debug) c (inserts.map fun i => .insert i.1 i.2) = .ok (replies, c') ∧
      replies.map (fun r => r.answer.slot) = (List.range' k inserts.length).map (fun i => some (i, 1)) ∧
      InOrder size (k + inserts.length) c' := by
  induction inserts generalizing k c with
  | nil => exact ⟨[], c, rfl, rfl, inOrder⟩
  | cons i inserts ih =>
    rw [List.length_cons] at room
    obtain ⟨reply, c', inserted, slot, inOrder'⟩ := inOrder.insert debug fits (by omega) i.1 i.2
    obtain ⟨replies, final, ran, slots, done⟩ := ih inOrder' (by omega)
    refine ⟨reply :: replies, final, ?_, ?_, ?_⟩
    · rw [List.map_cons, exec_cons_of_ok inserted, ran]
      rfl
    · rw [List.map_cons, slot, slots, List.length_cons, List.range'_succ, List.map_cons]
    · rwa [List.length_cons, Nat.add_comm inserts.length, ← Nat.add_assoc]

/-- The head of a new slab is slot 0 also when there is no slot, so the first insert indexes past the end. -/
theorem insert_no_slots {c : Client V P} (constructed : Client.new 0 = .ok c) (p : P) (value : V) :
    c.step debug (.insert p value) = .error .indexOutOfBounds := by
  cases constructed
  rfl

end Steps

/-- A new slab hands out every slot once, in order, and then gives the value back, unless it has no slots. -/
theorem fresh_slab_fills_in_order [DecidableEq P] (debug : Bool) {size : Nat} {c₀ : Client V P}
    (constructed : Client.new size = .ok c₀) (inserts : List (P × V)) (count : inserts.length = size) (last : P × V) :
    (∃ taken refused c,
      exec (Client.step debug) c₀ ((inserts ++ [last]).map fun i => .insert i.1 i.2) = .ok (taken ++ [refused], c) ∧
      taken.map (fun r => r.answer.slot) = (List.range size).map (fun i => some (i, 1)) ∧
      refused.answer = .full last.2) ↔ 0 < size := by
  constructor
  · rintro ⟨taken, refused, c, ran, _, _⟩
    by_contra none
    obtain rfl : size = 0 := by omega
    obtain rfl := List.length_eq_zero_iff.mp count
    exact not_completes_cons_of_error (insert_no_slots debug constructed last.1 last.2) ⟨_, _, ran⟩
  · intro positive
    obtain ⟨fits, inOrder⟩ := new_inOrder positive constructed
    obtain ⟨taken, c, ran, slots, full⟩ := inOrder.run debug fits inserts (by omega)
    rw [Nat.zero_add, count] at full
    refine ⟨taken, ⟨.full last.2, []⟩, c, ?_, ?_, rfl⟩
    · rw [List.map_append]
      refine exec_append_ok ran ?_
      rw [List.map_singleton, exec_cons_of_ok (full.insert_full debug last.1 last.2)]
      rfl
    · rw [slots, count, List.range_eq_range']

theorem fresh_slab_fills_in_order_two :
    ∃ c₀ taken refused c, Client.new 2 = .ok c₀ ∧
      exec (Client.step true) c₀ [.insert false 5, .insert true 6, .insert false 7] = .ok (taken ++ [refused], c) ∧
      taken.map (fun r : Reply Nat => r.answer.slot) = [some (0, 1), some (1, 1)] ∧ refused.answer = .full 7 := by
  obtain ⟨taken, refused, c, ran, slots, full⟩ :=
    (@fresh_slab_fills_in_order Nat Bool _ true 2 _ rfl [(false, 5), (true, 6)] rfl (false, 7)).mpr (by decide)
  exact ⟨_, taken, refused, c, rfl, ran, slots, full⟩

theorem no_slots_insert_panics :
    ∃ c₀ : Client Nat Bool, Client.new 0 = .ok c₀ ∧
      (c₀.step true (.insert false 5)).map (fun r => r.1.answer) = .error .indexOutOfBounds :=
  ⟨_, rfl, rfl⟩

end PlatyposSlab
