import Platypos.Slab.Operations

namespace PlatyposSlab

open Outcome Exec Chain

variable {V P : Type}

/-- What holds between operations: indices are issued once, a reference that is held points at the value passed to
    the insert that issued its index, and the values dropped so far are those removed to which no reference is left. -/
structure MapView (c : Client V P) (b : Book V) : Prop where
  once : (b.issued.map Prod.fst).Nodup
  refers : ∀ idx ∈ c.refs, ∃ value, (idx, value) ∈ b.issued ∧ c.slab.deref idx = some value
  dropped : b.dropped = b.gone c.refs

theorem fresh_linked {size : Nat} (fits : size < 2^18) (n i w : Nat) (total : i + n = size)
    (points : w = if i = size then EMPTY else i) :
    Linked globalCell (Slab.fresh size : Slab V P).next w (List.range' i n) := by
  induction n generalizing i w with
  | zero =>
    rw [points, if_pos (by omega)]
    exact if_pos rfl
  | succ n ih =>
    have more : i ≠ size := by omega
    rw [points, if_neg more]
    constructor
    · have entry := globalCell_pack (i := i) (t := 0) (by omega)
      rwa [Entry.pack, Nat.zero_mul, Nat.add_zero] at entry
    · apply ih (i + 1) _ (by omega)
      have last : i = size - 1 ↔ i + 1 = size := by omega
      simp only [Slab.fresh, last]

theorem fresh_untagged {size : Nat} (fits : size < 2^18) (n i w : Nat) (total : i + n = size)
    (points : w = if i = size then EMPTY else i) (x : Nat)
    (member : x ∈ words (Slab.fresh size : Slab V P).next w (List.range' i n)) : Entry.tag x = 0 := by
  induction n generalizing i w with
  | zero => simp [words] at member
  | succ n ih =>
    have more : i ≠ size := by omega
    rcases List.mem_cons.mp member with rfl | member
    · rw [points, if_neg more]
      exact Nat.div_eq_of_lt (by omega)
    · apply ih (i + 1) _ (by omega) _ member
      have last : i = size - 1 ↔ i + 1 = size := by omega
      simp only [Slab.fresh, last]

theorem fresh_filed {size : Nat} (positive : 0 < size) (fits : size < 2^18) :
    Filed (fun _ => .global) (List.range' 0 size) (fun _ => []) (Slab.fresh size : Slab V P) where
  fits := fits
  shelves :=
    { globalLinked := fresh_linked fits size 0 0 (by omega) (by rw [if_neg (by omega)])
      localLinked := fun _ => if_pos rfl
      globalNodup := List.nodup_range'
      localNodup := fun _ => List.nodup_nil
      mem_global := by
        intro i
        simp [Slab.fresh, List.mem_range'_1]
      mem_local := by simp }
  listed := by simp [Slab.fresh, Place.Listed]
  used := by simp [Slab.fresh]

theorem new_faithful {size : Nat} (positive : 0 < size) {c : Client V P} (constructed : Client.new size = .ok c) :
    Faithful c Book.empty := by
  unfold Client.new Slab.new at constructed
  split at constructed
  · rename_i fits
    cases constructed
    refine ⟨⟨_, _, _, fresh_filed positive fits⟩, ?_, by simp, by simp [Book.empty], by simp [Book.empty],
      by simp [Book.empty], Nat.zero_le _, rfl⟩
    intro i inside
    constructor <;> simp [Slab.fresh, Book.empty, Book.Live]
    exact ⟨rfl, by simp [heldAt]⟩
  · cases constructed

theorem Faithful.mapView {c : Client V P} {b : Book V} (faithful : Faithful c b) : MapView c b where
  once := faithful.keys
  refers := by
    intro idx held
    obtain ⟨value, issued, contents, _⟩ := faithful.entry held
    exact ⟨value, issued, contents⟩
  dropped := faithful.dropped

section Runs

variable [DecidableEq P]

theorem step_ensures (debug : Bool) {c : Client V P} {b : Book V} (faithful : Faithful c b) (op : Op V P) :
    Ensures (c.step debug op) (fun r => Faithful r.2 (b.record op r.1) ∧ Answers b op r.1.answer)
      (Exhausted c b op) := by
  cases op with
  | insert p value => exact insert_ensures debug faithful p value
  | get p idx => exact get_ensures debug faithful p idx
  | remove p idx => exact remove_ensures debug faithful p idx
  | drop p position => exact drop_ensures debug faithful p position

theorem run_faithful (debug : Bool) {size : Nat} (positive : 0 < size) {c₀ c : Client V P}
    (constructed : Client.new size = .ok c₀) {ops : List (Op V P)} {replies : List (Reply V)}
    (ran : exec (Client.step debug) c₀ ops = .ok (replies, c)) :
    Faithful c (ghost Book.record Book.empty ops replies) := by
  have preserved : ∀ (b : Book V) (c : Client V P) (op : Op V P), Faithful c b → True →
      Ensures (c.step debug op) (fun r => Faithful r.2 (b.record op r.1)) fun _ => True := by
    intro b c op faithful _
    exact (step_ensures debug faithful op).mono (fun _ _ => And.left) fun _ _ => trivial
  have start := new_faithful positive constructed
  exact (exec_ensures (fun _ => True) Book.record preserved start ops fun _ _ => trivial).of_ok ran

theorem slab_refines_map (debug : Bool) {size : Nat} (positive : 0 < size) {c₀ c : Client V P}
    (constructed : Client.new size = .ok c₀) (ops : List (Op V P)) {replies : List (Reply V)}
    (ran : exec (Client.step debug) c₀ ops = .ok (replies, c)) :
    MapView c (ghost Book.record Book.empty ops replies) ∧
      ∀ op, Ensures (c.step debug op)
        (fun r => Answers (ghost Book.record Book.empty ops replies) op r.1.answer ∧
          MapView r.2 ((ghost Book.record Book.empty ops replies).record op r.1))
        (Exhausted c (ghost Book.record Book.empty ops replies) op) := by
  have faithful := run_faithful debug positive constructed ran
  refine ⟨faithful.mapView, ?_⟩
  intro op
  apply (step_ensures debug faithful op).imp
  intro r kept
  exact ⟨kept.2, kept.1.mapView⟩

end Runs

theorem slab_refines_map_zombie :
    0 < 1 ∧ ∃ (c₀ c : Client Nat Bool) (replies : List (Reply Nat)), Client.new 1 = .ok c₀ ∧
      exec (Client.step true) c₀ [.insert false 7, .get true ⟨1, 0, by decide, by decide⟩,
        .remove true ⟨1, 0, by decide, by decide⟩] = .ok (replies, c) ∧
      MapView c (ghost Book.record Book.empty [.insert false 7, .get true ⟨1, 0, by decide, by decide⟩,
        .remove true ⟨1, 0, by decide, by decide⟩] replies) :=
  ⟨by decide, _, _, _, rfl, rfl, (@slab_refines_map Nat Bool _ true 1 (by decide) _ _ rfl _ _ rfl).1⟩

section Steps

variable {V P : Type} [DecidableEq P] (debug : Bool) {c : Client V P}

theorem step_insert_global {p : P} {i t : Nat} (value : V) (empty : c.slab.heads p = none)
    (head : c.slab.head = Entry.pack i t) (inside : i < c.slab.size) (fits : i < 2^18 - 1)
    (room : (c.slab.lifecycle i).generation + 1 < 2^46) (none : (c.slab.lifecycle i).refcount = 0) :
    ∃ idx l c', idx.index = i ∧ idx.generation = l.generation ∧ l.state = .allocated ∧
      l.generation = (c.slab.lifecycle i).generation + 1 ∧ l.refcount = 0 ∧
      c' = { c with slab := { c.slab with
        head := c.slab.next i
        lifecycle := Function.update c.slab.lifecycle i l
        contents := Function.update c.slab.contents i (some value)
        processor := Function.update c.slab.processor i (some p) } } ∧
      c.step debug (.insert p value) = .ok (⟨.inserted idx, []⟩, c') := by
  have index : Entry.index (Entry.pack i t) = i := Entry.index_pack (by omega) t
  have more := Entry.pack_ne_empty (t := t) fits
  have small : i < 2^18 := by omega
  have allocated : (c.slab.lifecycle i).allocate debug = .ok { c.slab.lifecycle i with
      generation := (c.slab.lifecycle i).generation + 1, state := .allocated, generationFits := room } := by
    unfold Lifecycle.allocate
    rw [dif_pos room]
    simp [none]
  refine ⟨⟨_, i, room, small⟩, { c.slab.lifecycle i with
    generation := (c.slab.lifecycle i).generation + 1, state := .allocated, generationFits := room }, _, rfl, rfl, rfl,
    rfl, none, rfl, ?_⟩
  simp only [Client.step, Slab.insert, Slab.pop, Slab.localPop, empty, Slab.globalPop, head, if_neg more, index,
    if_pos inside, Slab.allocate, allocated, dif_pos small, Bind.bind, Except.bind, Pure.pure, Except.pure]

theorem step_remove_foreign {p q : P} (idx : Idx) {value : V} (inside : idx.index < c.slab.size)
    (state : (c.slab.lifecycle idx.index).state = .allocated)
    (generation : (c.slab.lifecycle idx.index).generation = idx.generation)
    (none : (c.slab.lifecycle idx.index).refcount = 0) (contents : c.slab.contents idx.index = some value)
    (processor : c.slab.processor idx.index = some q) (foreign : q ≠ p) :
    ∃ reply l c', l.generation = idx.generation ∧ l.refcount = 0 ∧
      c' = { c with slab := { c.slab with
        lifecycle := Function.update c.slab.lifecycle idx.index l
        contents := Function.update c.slab.contents idx.index Option.none
        processor := Function.update c.slab.processor idx.index Option.none
        tag := (c.slab.tag + 1) % 2^64
        next := Function.update c.slab.next idx.index c.slab.head
        head := Entry.pack idx.index c.slab.tag } } ∧
      c.step debug (.remove p idx) = if 2^46 ≤ c.slab.tag then .error .tagOverflow else .ok (reply, c') := by
  have small : ¬ 2^18 ≤ idx.index := Nat.not_le.mpr idx.indexFits
  have refuse : ¬ some q = some p := fun same => foreign (Option.some.inj same)
  have marked : (c.slab.lifecycle idx.index).markUnallocated idx.generation =
      .propose { c.slab.lifecycle idx.index with state := .unallocated } true := by
    simp [Lifecycle.markUnallocated, generation, state, none]
  have cleared := clear_eq (s := { c.slab with
    lifecycle := Function.update c.slab.lifecycle idx.index
      { c.slab.lifecycle idx.index with state := .unallocated } }) debug contents (by simpa using none)
  refine ⟨⟨.removed true, [value]⟩, { c.slab.lifecycle idx.index with state := .unallocated }, _, generation, none,
    rfl, ?_⟩
  simp only [Client.step, Slab.remove, if_pos inside, marked, Slab.returnSlot, cleared, processor, Slab.cleared,
    if_neg refuse, Slab.globalPush, if_neg small, Function.update_idem, Function.update_self, Bind.bind, Except.bind]
  by_cases full : 2^46 ≤ c.slab.tag
  · simp only [if_pos full]
  · simp only [if_neg full, Pure.pure, Except.pure]

end Steps

/-- A slab of two slots, both filled by one processor, after `k` rounds in which another processor emptied it. -/
structure Filled (k : Nat) (c : Client Unit Bool) : Prop where
  size : c.slab.size = 2
  heads : c.slab.heads false = none
  slots : ∀ i < 2, (c.slab.lifecycle i).state = .allocated ∧ (c.slab.lifecycle i).generation = k + 1 ∧
    (c.slab.lifecycle i).refcount = 0 ∧ c.slab.contents i = some () ∧ c.slab.processor i = some false
  head : c.slab.head = EMPTY
  tag : c.slab.tag = 2 * k
  refs : c.refs = []

structure Emptied (k : Nat) (c : Client Unit Bool) : Prop where
  size : c.slab.size = 2
  heads : c.slab.heads false = none
  slots : ∀ i < 2, (c.slab.lifecycle i).generation = k + 1 ∧ (c.slab.lifecycle i).refcount = 0
  head : c.slab.head = Entry.pack 1 (2 * k + 1)
  next : c.slab.next 1 = Entry.pack 0 (2 * k) ∧ c.slab.next 0 = EMPTY
  tag : c.slab.tag = 2 * k + 2
  refs : c.refs = []

section Rounds

variable {k : Nat} {c : Client Unit Bool}

theorem Filled.empty (filled : Filled k c) (room : 2 * k + 2 ≤ 2^46) (fits : k + 1 < 2^46) :
    ∃ replies c', exec (Client.step true) c
        [.remove true ⟨k + 1, 0, fits, by decide⟩, .remove true ⟨k + 1, 1, fits, by decide⟩] = .ok (replies, c') ∧
      Emptied k c' := by
  have size := filled.size
  have tag := filled.tag
  obtain ⟨state₀, generation₀, none₀, contents₀, processor₀⟩ := filled.slots 0 (by decide)
  obtain ⟨state₁, generation₁, none₁, contents₁, processor₁⟩ := filled.slots 1 (by decide)
  obtain ⟨reply₀, l₀, c₀, current₀, count₀, same₀, first⟩ :=
    step_remove_foreign true (p := true) ⟨k + 1, 0, fits, by decide⟩ (by simp [size]) state₀ generation₀
      none₀ contents₀ processor₀ (by decide)
  rw [if_neg (by omega)] at first
  have tag₀ : c₀.slab.tag = 2 * k + 1 := by
    rw [same₀]
    simp only
    omega
  obtain ⟨reply₁, l₁, c₁, current₁, count₁, same₁, second⟩ :=
    step_remove_foreign (c := c₀) true (p := true) ⟨k + 1, 1, fits, by decide⟩ (by simp [same₀, size])
      (by simpa [same₀] using state₁) (by simpa [same₀] using generation₁) (by simpa [same₀] using none₁)
      (by simpa [same₀] using contents₁) (by simpa [same₀] using processor₁) (by decide)
  rw [if_neg (by omega)] at second
  refine ⟨[reply₀, reply₁], c₁, by rw [exec_cons_of_ok first, exec_cons_of_ok second]; rfl, ?_⟩
  subst same₁ same₀
  simp only at current₀ current₁ tag₀
  refine ⟨size, filled.heads, ?_, by simp only [tag₀], ⟨?_, ?_⟩, by simp only [tag₀]; omega, filled.refs⟩
  · intro i inside
    have either : i = 0 ∨ i = 1 := by omega
    rcases either with rfl | rfl
    · simp [current₀, count₀]
    · simp [current₁, count₁]
  · simp [tag]
  · simp [filled.head]

theorem Emptied.fill (emptied : Emptied k c) (room : k + 2 < 2^46) :
    ∃ replies c', exec (Client.step true) c [.insert false (), .insert false ()] = .ok (replies, c') ∧
      Filled (k + 1) c' := by
  obtain ⟨generation₀, none₀⟩ := emptied.slots 0 (by decide)
  obtain ⟨generation₁, none₁⟩ := emptied.slots 1 (by decide)
  have size := emptied.size
  obtain ⟨idx₁, l₁, c₁, _, _, state₁, current₁, count₁, same₁, first⟩ :=
    step_insert_global true () emptied.heads emptied.head (by simp [size]) (by decide) (by omega) none₁
  obtain ⟨idx₀, l₀, c₀, _, _, state₀, current₀, count₀, same₀, second⟩ :=
    step_insert_global (c := c₁) (i := 0) (t := 2 * k) true () (by simpa [same₁] using emptied.heads)
      (by simpa [same₁] using emptied.next.1) (by simp [same₁, size]) (by decide)
      (by simp [same₁]; omega) (by simpa [same₁] using none₀)
  refine ⟨_, c₀, by rw [exec_cons_of_ok first, exec_cons_of_ok second]; rfl, ?_⟩
  subst same₀ same₁
  refine ⟨size, emptied.heads, ?_, ?_, ?_, emptied.refs⟩
  · intro i inside
    have either : i = 0 ∨ i = 1 := by omega
    rcases either with rfl | rfl
    · simpa [state₀, count₀, current₀] using generation₀
    · simpa [state₁, count₁, current₁] using generation₁
  · simpa using emptied.next.2
  · have tag := emptied.tag
    simp only
    omega

theorem filled_run {c₀ : Client Unit Bool} (constructed : Client.new 2 = .ok c₀) (k : Nat) (bound : k ≤ 2^45) :
    ∃ ops replies c, exec (Client.step true) c₀ ops = .ok (replies, c) ∧ Filled k c ∧
      ∀ op ∈ ops, ∀ p idx, op ≠ .get p idx := by
  induction k with
  | zero =>
    cases constructed
    refine ⟨[.insert false (), .insert false ()], _, _, rfl, ⟨rfl, rfl, ?_, rfl, rfl, rfl⟩, by simp⟩
    intro i inside
    have either : i = 0 ∨ i = 1 := by omega
    rcases either with rfl | rfl
    · exact ⟨rfl, rfl, rfl, rfl, rfl⟩
    · exact ⟨rfl, rfl, rfl, rfl, rfl⟩
  | succ k ih =>
    obtain ⟨ops, replies, c, ran, filled, plain⟩ := ih (by omega)
    obtain ⟨replies₁, c₁, removes, emptied⟩ := filled.empty (by omega) (by omega)
    obtain ⟨replies₂, c₂, inserts, filled'⟩ := emptied.fill (by omega)
    refine ⟨_, _, _, exec_append_ok (exec_append_ok ran removes) inserts, filled', ?_⟩
    intro op member
    simp only [List.mem_append] at member
    rcases member with (member | member) | member
    · exact plain op member
    · rcases List.mem_pair.mp member with rfl | rfl <;> simp
    · rcases List.mem_pair.mp member with rfl | rfl <;> simp

theorem tag_exhausted :
    ∃ (c₀ c : Client Unit Bool) (ops : List (Op Unit Bool)) (replies : List (Reply Unit)) (idx : Idx),
      Client.new 2 = .ok c₀ ∧ exec (Client.step true) c₀ ops = .ok (replies, c) ∧
      (∀ op ∈ ops, ∀ p idx, op ≠ .get p idx) ∧
      (∀ i, (ghost Book.record Book.empty ops replies).issued.countP (fun e => decide (e.1.index = i)) < 2^46) ∧
      (ghost Book.record Book.empty ops replies).Live idx ∧ c.step true (.remove true idx) = .error .tagOverflow := by
  obtain ⟨ops, replies, c, ran, filled, plain⟩ := filled_run rfl (2^45) (by decide)
  have faithful := run_faithful true (show 0 < 2 by decide) rfl ran
  have size := filled.size
  obtain ⟨state, generation, none, contents, processor⟩ := filled.slots 0 (by decide)
  refine ⟨_, c, ops, replies, ⟨2^45 + 1, 0, by decide, by decide⟩, rfl, ran, plain, ?_, ?_, ?_⟩
  · intro i
    by_cases inside : i < 2
    · rw [← (faithful.agrees i (size ▸ inside)).allocations, (filled.slots i inside).2.1]
      decide
    · rw [List.countP_eq_zero.mpr]
      · decide
      · intro e member
        have bound := faithful.issuedInside e member
        simp only [decide_eq_true_eq]
        omega
  · rw [faithful.live_iff]
    exact ⟨by simp [size], state, generation⟩
  · obtain ⟨reply, l, c', _, _, _, stepped⟩ := step_remove_foreign true (p := true) ⟨2^45 + 1, 0, by decide, by decide⟩
      (by simp [size]) state generation none contents processor (by decide)
    have tag := filled.tag
    rw [stepped, if_pos (by omega)]

end Rounds

end PlatyposSlab
