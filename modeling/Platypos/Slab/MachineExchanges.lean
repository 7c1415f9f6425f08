import Platypos.Slab.MachineSteps

namespace PlatyposSlab.Machine

open CasLoop TaggedStack Chain

variable {V P : Type} [DecidableEq P] {s : System V P} {place : Nat → Place P} {cells : List Nat}
  {locals : P → List Nat} {p : P} (inv : Invariant s place cells locals)

section Exchanges

variable (free : (s.pc p).holding = none) (calm : ∀ reason, s.pc p ≠ .panicked reason) {idx : Idx}
  (inside : idx.index < s.slab.size)

include inv free calm

theorem Invariant.aim {b : Pc V} (loose : b.holding = none) (away : b.phase = .away)
    (aimed : ∀ i, b.target = some i → i < s.slab.size)
    (dropping : ∀ idx proposal, b = .release idx proposal → (p, idx) ∈ s.refs) :
    Invariant (s.setPc p b) place cells locals := by
  apply inv.turn free calm loose
  · refine ⟨by simp [loose], dropping, aimed, ?_, by simp [away, Phase.seen]⟩
    intro i t old same
    rw [same] at loose
    cases loose
  · simp [away, Phase.seen]
  · simp [away]

theorem Invariant.rest : Invariant (s.setPc p .idle) place cells locals :=
  inv.aim free calm rfl rfl (by simp [Pc.target]) (by simp)

include inside

theorem Invariant.acquired {new : Lifecycle}
    (proposed : (s.slab.lifecycle idx.index).acquireReference idx.generation = .propose new ()) :
    Invariant (s.afterAcquire p idx (.committed new ())) place cells locals := by
  obtain ⟨_, state, _, state', _⟩ := Lifecycle.acquireReference_propose proposed
  apply inv.exchange free calm
  · intro q idx' _ member
    exact Multiset.mem_cons_of_mem member
  · intro j differ
    rw [refsAt_cons, if_neg (Ne.symm differ)]
  · rw [refsAt_cons, if_pos rfl]
    exact (inv.counted idx.index).acquired proposed
  · rcases (inv.suited idx.index inside).used (.inl state) with here | ⟨q, here, panicked | ⟨⟨value, filling⟩, _⟩⟩
    · rw [here]
      exact .inl state'
    · rw [here]
      exact .inl panicked
    · rw [here]
      exact .inr ⟨by rw [filling]; rfl, by rw [filling]; exact state'⟩

theorem Invariant.released {new : Lifecycle} {last : Bool} (held : (p, idx) ∈ s.refs)
    (proposed : (s.slab.lifecycle idx.index).releaseReference idx.generation = .propose new last) :
    ∃ place', Invariant (s.afterRelease p idx (.committed new last)) place' cells locals := by
  obtain ⟨_, state, _, state', fewer, lastly⟩ := Lifecycle.releaseReference_propose proposed
  have whole : ∀ j, refsAt s.refs j = if idx.index = j then idx.generation ::ₘ refsAt (s.refs.erase (p, idx)) j
      else refsAt (s.refs.erase (p, idx)) j := by
    intro j
    rw [← Multiset.cons_erase held, refsAt_cons, Multiset.erase_cons_head]
  have others : ∀ q idx', q ≠ p → (q, idx') ∈ s.refs → (q, idx') ∈ s.refs.erase (p, idx) := by
    intro q idx' differ member
    exact (Multiset.mem_erase_of_ne fun same => differ (Prod.mk.inj same).1).mpr member
  have elsewhere : ∀ j, j ≠ idx.index → refsAt (s.refs.erase (p, idx)) j = refsAt s.refs j := by
    intro j differ
    rw [whole j, if_neg (Ne.symm differ)]
  have counted : new.Counted (refsAt (s.refs.erase (p, idx)) idx.index) := by
    have mine := whole idx.index
    rw [if_pos rfl] at mine
    have after := (inv.counted idx.index).released (by simp [mine]) proposed
    rwa [mine, Multiset.erase_cons_head] at after
  have used := (inv.suited idx.index inside).used (.inr (by omega))
  cases last with
  | true =>
    obtain ⟨zombie, none⟩ := lastly.mp rfl
    have unlisted : ¬ (place idx.index).Listed := by
      rcases used with here | ⟨q, here, _⟩ <;> rw [here] <;> exact id
    have unheld : ∀ q, (s.pc q).holding ≠ some idx.index := by
      intro q holding
      obtain ⟨value, filling⟩ := (inv.suits holding).filling holding (.inr (by omega))
      have suits := inv.suits holding
      rw [filling] at suits
      rw [show (s.slab.lifecycle idx.index).state = .allocated from suits] at zombie
      cases zombie
    exact ⟨_, inv.grant free calm inside others elsewhere counted unlisted unheld (by simp [state', zombie]) none⟩
  | false =>
    refine ⟨place, inv.exchange free calm others elsewhere counted ?_⟩
    rcases used with here | ⟨q, here, panicked | ⟨⟨value, filling⟩, allocated⟩⟩
    · have before := inv.suited idx.index inside
      rw [here] at before ⊢
      rcases before with allocated | ⟨zombie, _⟩
      · exact .inl (state'.trans allocated)
      · refine .inr ⟨state'.trans zombie, Nat.pos_of_ne_zero fun none => ?_⟩
        cases lastly.mpr ⟨zombie, none⟩
    · rw [here]
      exact .inl panicked
    · rw [here]
      exact .inr ⟨by rw [filling]; rfl, by rw [filling]; exact state'.trans allocated⟩

theorem Invariant.marked {new : Lifecycle} {unallocated : Bool}
    (returned : ∀ q value, s.pc q = .allocFill value idx.index →
      (s.slab.lifecycle idx.index).generation ≠ idx.generation)
    (proposed : (s.slab.lifecycle idx.index).markUnallocated idx.generation = .propose new unallocated) :
    ∃ place', Invariant (s.afterMark p idx (.committed new unallocated)) place' cells locals := by
  obtain ⟨generation, state, same, refcount, state', zero⟩ := Lifecycle.markUnallocated_propose proposed
  have counted := (inv.counted idx.index).of_same same refcount
  have used := (inv.suited idx.index inside).used (.inl state)
  cases unallocated with
  | true =>
    have unlisted : ¬ (place idx.index).Listed := by
      rcases used with here | ⟨q, here, _⟩ <;> rw [here] <;> exact id
    have unheld : ∀ q, (s.pc q).holding ≠ some idx.index := by
      intro q holding
      obtain ⟨value, filling⟩ := (inv.suits holding).filling holding (.inl state)
      exact returned q value filling generation
    exact ⟨_, inv.grant free calm inside (fun _ _ _ => id) (fun _ _ => rfl) counted unlisted unheld (by simp [state'])
      (by simpa [refcount] using zero)⟩
  | false =>
    refine ⟨place, inv.exchange free calm (fun _ _ _ => id) (fun _ _ => rfl) counted ?_⟩
    rcases used with here | ⟨q, here, panicked | ⟨⟨value, filling⟩, _⟩⟩
    · rw [here]
      exact .inr ⟨by simp [state'], Nat.pos_of_ne_zero (by simpa [refcount] using zero)⟩
    · rw [here]
      exact .inl panicked
    · exact absurd generation (returned q value filling)

theorem Invariant.afterAcquire {outcome : Outcome (Lifecycle.acquireReference idx.generation)}
    (committed : ∀ new, outcome = .committed new () →
      (s.slab.lifecycle idx.index).acquireReference idx.generation = .propose new ()) :
    Invariant (s.afterAcquire p idx outcome) place cells locals := by
  cases outcome with
  | refused error => exact inv.rest free calm
  | panicked reason => exact inv.panic reason
  | retry proposal => exact inv.aim free calm rfl rfl (by simp [Pc.target, inside]) (by simp)
  | committed new result => exact inv.acquired free calm inside (committed new rfl)

theorem Invariant.afterRelease {outcome : Outcome (Lifecycle.releaseReference idx.generation)} (held : (p, idx) ∈ s.refs)
    (committed : ∀ new last, outcome = .committed new last →
      (s.slab.lifecycle idx.index).releaseReference idx.generation = .propose new last) :
    ∃ place', Invariant (s.afterRelease p idx outcome) place' cells locals := by
  cases outcome with
  | refused error => exact ⟨place, inv.panic .releaseFailed⟩
  | panicked reason => exact ⟨place, inv.panic reason⟩
  | retry proposal =>
    refine ⟨place, inv.aim free calm rfl rfl (by simp [Pc.target, inside]) ?_⟩
    intro idx' proposal' same
    cases same
    exact held
  | committed new last => exact inv.released free calm inside held (committed new last rfl)

theorem Invariant.afterMark {outcome : Outcome (Lifecycle.markUnallocated idx.generation)}
    (returned : ∀ new unallocated, outcome = .committed new unallocated → ∀ q value,
      s.pc q = .allocFill value idx.index → (s.slab.lifecycle idx.index).generation ≠ idx.generation)
    (committed : ∀ new unallocated, outcome = .committed new unallocated →
      (s.slab.lifecycle idx.index).markUnallocated idx.generation = .propose new unallocated) :
    ∃ place', Invariant (s.afterMark p idx outcome) place' cells locals := by
  cases outcome with
  | refused error => exact ⟨place, inv.rest free calm⟩
  | panicked reason => exact ⟨place, inv.panic reason⟩
  | retry proposal => exact ⟨place, inv.aim free calm rfl rfl (by simp [Pc.target, inside]) (by simp)⟩
  | committed new unallocated =>
    exact inv.marked free calm inside (returned new unallocated rfl) (committed new unallocated rfl)

end Exchanges

end PlatyposSlab.Machine
