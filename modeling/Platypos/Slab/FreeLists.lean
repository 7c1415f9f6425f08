import Mathlib.Algebra.Group.Nat.Defs
import Platypos.Library.Chain

namespace PlatyposSlab

open Chain

def EMPTY : Nat := 2^64 - 1

namespace Entry

/-- A word of the global free list: an 18-bit index below a 46-bit tag. -/
def pack (index tag : Nat) : Nat := index + tag * 2^18

def index (word : Nat) : Nat := word % 2^18

def tag (word : Nat) : Nat := word / 2^18

theorem index_pack {i : Nat} (fits : i < 2^18) (tag : Nat) : index (pack i tag) = i := by
  rw [index, pack, Nat.add_mul_mod_self_right, Nat.mod_eq_of_lt fits]

theorem tag_pack {i : Nat} (fits : i < 2^18) (t : Nat) : tag (pack i t) = t := by
  rw [tag, pack, Nat.add_mul_div_right _ _ (by decide), Nat.div_eq_of_lt fits, Nat.zero_add]

theorem pack_ne_empty {i t : Nat} (fits : i < 2^18 - 1) : pack i t ≠ EMPTY := by
  unfold pack EMPTY
  omega

end Entry

def globalCell (word : Nat) : Option Nat := if word = EMPTY then none else some (Entry.index word)

def localCell (word : Nat) : Option Nat := if word = EMPTY then none else some word

theorem globalCell_pack {i t : Nat} (fits : i < 2^18 - 1) : globalCell (Entry.pack i t) = some i := by
  rw [globalCell, if_neg (Entry.pack_ne_empty fits), Entry.index_pack (by omega)]

theorem localCell_of_lt {i : Nat} (fits : i < 2^18 - 1) : localCell i = some i := by
  rw [localCell, if_neg]
  unfold EMPTY
  omega

/-- Where a slot is: in the global list, in a processor's list, in the hands of a processor, or in use. -/
inductive Place (P : Type) where
  | inUse
  | global
  | local (processor : P)
  | held (processor : P)
  deriving DecidableEq

def Place.Listed {P : Type} : Place P → Prop
  | .global => True
  | .local _ => True
  | _ => False

variable {P : Type}

/-- The free lists hold every listed slot once, at its place. -/
structure Shelves (size : Nat) (next : Nat → Nat) (head : Nat) (heads : P → Option Nat) (place : Nat → Place P)
    (cells : List Nat) (locals : P → List Nat) : Prop where
  globalLinked : Linked globalCell next head cells
  localLinked : ∀ p, Linked localCell next ((heads p).getD EMPTY) (locals p)
  globalNodup : cells.Nodup
  localNodup : ∀ p, (locals p).Nodup
  mem_global : ∀ i, i ∈ cells ↔ i < size ∧ place i = .global
  mem_local : ∀ p i, i ∈ locals p ↔ i < size ∧ place i = .local p

namespace Shelves

variable {size : Nat} {next : Nat → Nat} {head : Nat} {heads : P → Option Nat} {place : Nat → Place P}
  {cells : List Nat} {locals : P → List Nat} {i : Nat} {here there : Place P}

section Members

variable {list : List Nat}

theorem members_elsewhere (members : ∀ j, j ∈ list ↔ j < size ∧ place j = there) (outside : i ∉ list)
    (differ : here ≠ there) (j : Nat) : j ∈ list ↔ j < size ∧ Function.update place i here j = there := by
  by_cases same : j = i
  · subst same
    simp [outside, differ]
  · simpa [same] using members j

theorem members_added (members : ∀ j, j ∈ list ↔ j < size ∧ place j = there) (inside : i < size) (j : Nat) :
    j ∈ i :: list ↔ j < size ∧ Function.update place i there j = there := by
  by_cases same : j = i
  · subst same
    simp [inside]
  · simpa [same] using members j

theorem members_removed (members : ∀ j, j ∈ i :: list ↔ j < size ∧ place j = there) (fresh : i ∉ list)
    (differ : here ≠ there) (j : Nat) : j ∈ list ↔ j < size ∧ Function.update place i here j = there := by
  by_cases same : j = i
  · subst same
    simp [fresh, differ]
  · simpa [same] using members j

end Members

theorem notMem_global (shelves : Shelves size next head heads place cells locals) (unlisted : ¬ (place i).Listed) :
    i ∉ cells := by
  intro member
  rw [((shelves.mem_global i).mp member).2] at unlisted
  exact unlisted trivial

theorem notMem_local (shelves : Shelves size next head heads place cells locals) (unlisted : ¬ (place i).Listed)
    (p : P) : i ∉ locals p := by
  intro member
  rw [((shelves.mem_local p i).mp member).2] at unlisted
  exact unlisted trivial

theorem ne_global (unlisted : ¬ here.Listed) : here ≠ .global := by
  intro same
  exact unlisted (same ▸ trivial)

theorem ne_local (unlisted : ¬ here.Listed) (p : P) : here ≠ .local p := by
  intro same
  exact unlisted (same ▸ trivial)

theorem write (shelves : Shelves size next head heads place cells locals) (unlisted : ¬ (place i).Listed) (x : Nat) :
    Shelves size (Function.update next i x) head heads place cells locals :=
  { shelves with
    globalLinked := shelves.globalLinked.write (shelves.notMem_global unlisted)
    localLinked := fun p => (shelves.localLinked p).write (shelves.notMem_local unlisted p) }

theorem move (shelves : Shelves size next head heads place cells locals) (unlisted : ¬ (place i).Listed)
    (still : ¬ here.Listed) : Shelves size next head heads (Function.update place i here) cells locals :=
  { shelves with
    mem_global := members_elsewhere shelves.mem_global (shelves.notMem_global unlisted) (ne_global still)
    mem_local := fun p =>
      members_elsewhere (shelves.mem_local p) (shelves.notMem_local unlisted p) (ne_local still p) }

theorem pushGlobal (shelves : Shelves size next head heads place cells locals) (unlisted : ¬ (place i).Listed)
    (inside : i < size) {word : Nat} (points : globalCell word = some i) (written : next i = head) :
    Shelves size next word heads (Function.update place i .global) (i :: cells) locals where
  globalLinked := ⟨points, written ▸ shelves.globalLinked⟩
  localLinked := shelves.localLinked
  globalNodup := List.nodup_cons.mpr ⟨shelves.notMem_global unlisted, shelves.globalNodup⟩
  localNodup := shelves.localNodup
  mem_global := members_added shelves.mem_global inside
  mem_local p := members_elsewhere (shelves.mem_local p) (shelves.notMem_local unlisted p) (by simp)

theorem popGlobal (shelves : Shelves size next head heads place (i :: cells) locals) (still : ¬ here.Listed) :
    Shelves size next (next i) heads (Function.update place i here) cells locals := by
  obtain ⟨fresh, nodup⟩ := List.nodup_cons.mp shelves.globalNodup
  refine ⟨shelves.globalLinked.2, shelves.localLinked, nodup, shelves.localNodup,
    members_removed shelves.mem_global fresh (ne_global still), ?_⟩
  intro p
  apply members_elsewhere (shelves.mem_local p) _ (ne_local still p)
  intro member
  have clash := ((shelves.mem_global i).mp (by simp)).2.symm.trans ((shelves.mem_local p i).mp member).2
  cases clash

variable [DecidableEq P] {p : P}

theorem pushLocal (shelves : Shelves size next head heads place cells locals) (unlisted : ¬ (place i).Listed)
    (inside : i < size) (points : localCell i = some i) (written : next i = (heads p).getD EMPTY) :
    Shelves size next head (Function.update heads p (some i)) (Function.update place i (.local p)) cells
      (Function.update locals p (i :: locals p)) := by
  refine ⟨shelves.globalLinked, ?_, shelves.globalNodup, ?_,
    members_elsewhere shelves.mem_global (shelves.notMem_global unlisted) (by simp), ?_⟩
  · intro q
    by_cases same : q = p
    · subst same
      rw [Function.update_self, Function.update_self]
      exact ⟨points, written ▸ shelves.localLinked q⟩
    · rw [Function.update_of_ne same, Function.update_of_ne same]
      exact shelves.localLinked q
  · intro q
    by_cases same : q = p
    · subst same
      rw [Function.update_self]
      exact List.nodup_cons.mpr ⟨shelves.notMem_local unlisted q, shelves.localNodup q⟩
    · rw [Function.update_of_ne same]
      exact shelves.localNodup q
  · intro q
    by_cases same : q = p
    · subst same
      rw [Function.update_self]
      exact members_added (shelves.mem_local q) inside
    · rw [Function.update_of_ne same]
      exact members_elsewhere (shelves.mem_local q) (shelves.notMem_local unlisted q) (by simp [Ne.symm same])

theorem popLocal (shelves : Shelves size next head heads place cells locals) {rest : List Nat}
    (top : locals p = i :: rest) (still : ¬ here.Listed) :
    Shelves size next head (Function.update heads p (some (next i))) (Function.update place i here) cells
      (Function.update locals p rest) := by
  have listed : place i = .local p := ((shelves.mem_local p i).mp (by simp [top])).2
  have linked := shelves.localLinked p
  have nodup := shelves.localNodup p
  rw [top] at linked nodup
  obtain ⟨fresh, nodup⟩ := List.nodup_cons.mp nodup
  refine ⟨shelves.globalLinked, ?_, shelves.globalNodup, ?_, ?_, ?_⟩
  · intro q
    by_cases same : q = p
    · subst same
      rw [Function.update_self, Function.update_self]
      exact linked.2
    · rw [Function.update_of_ne same, Function.update_of_ne same]
      exact shelves.localLinked q
  · intro q
    by_cases same : q = p
    · subst same
      rw [Function.update_self]
      exact nodup
    · rw [Function.update_of_ne same]
      exact shelves.localNodup q
  · apply members_elsewhere shelves.mem_global _ (ne_global still)
    intro member
    have clash := listed.symm.trans ((shelves.mem_global i).mp member).2
    cases clash
  · intro q
    by_cases same : q = p
    · subst same
      rw [Function.update_self]
      apply members_removed _ fresh (ne_local still q)
      rw [← top]
      exact shelves.mem_local q
    · rw [Function.update_of_ne same]
      apply members_elsewhere (shelves.mem_local q) _ (ne_local still q)
      intro member
      have clash := listed.symm.trans ((shelves.mem_local q i).mp member).2
      simp only [Place.local.injEq] at clash
      exact same clash.symm

end Shelves

end PlatyposSlab
