import Platypos.Memory.Coalesce

namespace Platypos.Memory

open Outcome

/-- A position of the run list where a run fits between its neighbours. -/
def Fits (arena : Arena) (cursor : Cursor RunId) (run : RunId) : Prop :=
  (∀ next ∈ cursor.after.head?, (arena run).limit ≤ (arena next).start) ∧
    ∀ prev ∈ cursor.before.getLast?, (arena prev).limit ≤ (arena run).start

theorem checkBefore_ensures (arena : Arena) (prev run : RunId) :
    Ensures (checkBefore arena prev run) (fun _ => (arena prev).limit ≤ (arena run).start)
      (fun e => e = .overflow ∨ e = .overlap ∧ ¬ (arena prev).limit ≤ (arena run).start) := by
  apply ((AddressRange.endOf_ensures _).mono (fun a _ => id) fun e => Or.inl).bind
  intro limit same
  subst same
  unfold check
  split
  · assumption
  · exact .inr ⟨rfl, ‹_›⟩

theorem checkAfter_ensures (arena : Arena) (run next : RunId) :
    Ensures (checkAfter arena run next) (fun _ => (arena run).limit ≤ (arena next).start)
      (fun e => e = .overflow ∨ e = .overlap ∧ ¬ (arena run).limit ≤ (arena next).start) := by
  apply ((AddressRange.endOf_ensures _).mono (fun a _ => id) fun e => Or.inl).bind
  intro limit same
  subst same
  unfold check
  split
  · assumption
  · exact .inr ⟨rfl, ‹_›⟩

theorem checkPrev_ensures (t : Traversal) (run : RunId) :
    Ensures (checkPrev t run)
      (fun _ => ∀ prev ∈ t.cursor.before.getLast?, (t.arena prev).limit ≤ (t.arena run).start)
      (fun e => e = .overflow ∨ e = .overlap ∧ ¬ Fits t.arena t.cursor run) := by
  unfold checkPrev Cursor.peekPrev
  cases last : t.cursor.before.getLast? with
  | none => simp
  | some prev =>
    apply (checkBefore_ensures t.arena prev run).mono
    · intro _ _ fits other same
      cases same
      exact fits
    · intro e failed
      rcases failed with failed | failed
      · exact .inl failed
      · exact .inr ⟨failed.1, fun fits => failed.2 (fits.2 prev last)⟩

theorem checkNext_ensures (t : Traversal) (run : RunId) :
    Ensures (checkNext t run)
      (fun _ => ∀ next ∈ t.cursor.after.head?, (t.arena run).limit ≤ (t.arena next).start)
      (fun e => e = .overflow ∨ e = .overlap ∧ ¬ Fits t.arena t.cursor run) := by
  unfold checkNext Cursor.get
  cases first : t.cursor.after.head? with
  | none =>
    apply (checkPrev_ensures t run).imp
    intro _ _ other same
    cases same
  | some next =>
    apply (checkAfter_ensures t.arena run next).mono
    · intro _ _ fits other same
      cases same
      exact fits
    · intro e failed
      rcases failed with failed | failed
      · exact .inl failed
      · exact .inr ⟨failed.1, fun fits => failed.2 (fits.1 next first)⟩

theorem checkOverlap_ensures (t : Traversal) (run : RunId) :
    Ensures (checkOverlap t run) (fun _ => Fits t.arena t.cursor run)
      (fun e => e = .overflow ∨ e = .overlap ∧ ¬ Fits t.arena t.cursor run) := by
  apply (checkNext_ensures t run).bind
  intro _ fitsNext
  apply (checkPrev_ensures t run).imp
  intro _ fitsPrev
  exact ⟨fitsNext, fitsPrev⟩

structure Added (t : Traversal) (run : RunId) (s : AllocatorInner) : Prop where
  fits : Fits t.arena t.cursor run
  ledger : s.ledger = if (t.arena run).status = .allocated
    then t.cursor.before.map t.arena ++ t.arena run :: t.cursor.after.map t.arena
    else Ledger.settle (t.cursor.before.map t.arena) (t.arena run) (t.cursor.after.map t.arena)
  linked : Linked s.arena s.runs s.tracking
  perm : (s.runs ++ s.tracking.unusedRuns).Perm (run :: (t.cursor.toList ++ t.tracking.unusedRuns))
  unchanged : ((t.arena run).status = .allocated ∨
      (∀ next ∈ (t.cursor.after.map t.arena).head?, ¬ Ledger.Touches (t.arena run) next) ∧
      ∀ prev ∈ (t.cursor.before.map t.arena).getLast?, ¬ Ledger.Touches prev (t.arena run)) →
    s.arena = t.arena ∧ s.tracking.unusedRuns = t.tracking.unusedRuns

theorem Linked.insert {arena : Arena} {before after : List RunId} {tracking : AllocatorTracking} {run : RunId}
    (linked : Linked arena (before ++ after) tracking) (fresh : run ∉ before ++ after ++ tracking.unusedRuns)
    (cursor : Cursor RunId) :
    Linked arena (before ++ run :: after) (pushFree ⟨arena, cursor, tracking⟩ run) := by
  have absent : run ∉ tracking.free := by
    intro member
    exact fresh (List.mem_append_left _ ((linked.mem_free run).mp member).1)
  have nodup : (before ++ run :: after ++ tracking.unusedRuns).Nodup := by
    rw [List.append_assoc, List.cons_append, List.nodup_middle, ← List.append_assoc]
    exact List.nodup_cons.mpr ⟨fresh, linked.nodup⟩
  by_cases kind : (arena run).status = .free
  · simp only [pushFree, kind, ite_true]
    refine ⟨nodup, ?_, ?_⟩
    · rw [List.nodup_append_comm, List.singleton_append]
      exact List.nodup_cons.mpr ⟨absent, linked.freeNodup⟩
    · intro other
      by_cases same : other = run
      · subst same
        simp [kind]
      · simp only [List.mem_append, same, List.mem_cons, List.not_mem_nil, or_false, false_or]
        rw [linked.mem_free, List.mem_append]
  · simp only [pushFree, kind, ite_false]
    refine ⟨nodup, linked.freeNodup, ?_⟩
    intro other
    by_cases same : other = run
    · subst same
      simp [absent, kind]
    · simp only [List.mem_append, same, List.mem_cons, false_or]
      rw [linked.mem_free, List.mem_append]

theorem pushFree_unusedRuns (t : Traversal) (run : RunId) :
    (pushFree t run).unusedRuns = t.tracking.unusedRuns := by
  unfold pushFree
  split <;> rfl

theorem addRun_ensures (debug : Bool) {t : Traversal} {run : RunId}
    (linked : Linked t.arena t.cursor.toList t.tracking)
    (fresh : run ∉ t.cursor.toList ++ t.tracking.unusedRuns) :
    Ensures (addRun debug t run) (Added t run)
      (fun e => e = .overflow ∨ e = .overlap ∧ ¬ Fits t.arena t.cursor run) := by
  have apart : run ∉ t.cursor.toList ∧ run ∉ t.tracking.unusedRuns := by simpa using fresh
  have absent : run ∉ t.tracking.free := fun member => apart.1 ((linked.mem_free run).mp member).1
  have inserted : Linked t.arena (t.cursor.before ++ run :: t.cursor.after) (pushFree t run) :=
    Linked.insert linked fresh t.cursor
  have perm : (t.cursor.before ++ run :: t.cursor.after ++ (pushFree t run).unusedRuns).Perm
      (run :: (t.cursor.toList ++ t.tracking.unusedRuns)) := by
    rw [pushFree_unusedRuns, ← List.cons_append]
    exact List.perm_middle.append_right _
  simp only [addRun, check, apart, absent, not_false_eq_true, and_self, ite_true, Bind.bind, Except.bind]
  apply (checkOverlap_ensures t run).bind
  intro _ fits
  by_cases kind : (t.arena run).status = .allocated
  · have back : t.cursor.before ++ [run] ++ t.cursor.after = t.cursor.before ++ run :: t.cursor.after := by simp
    simp only [kind, ne_eq, not_true_eq_false, ite_false, ensures_pure, Cursor.insertBefore]
    refine ⟨fits, ?_, ?_, ?_, ?_⟩
    · simp [AllocatorInner.ledger, Traversal.close, kind]
    · simpa [Traversal.close] using inserted
    · simpa [Traversal.close] using perm
    · intro _
      exact ⟨rfl, pushFree_unusedRuns t run⟩
  · simp only [kind, ne_eq, not_false_eq_true, ite_true, Cursor.insertBefore_movePrev]
    apply ((coalesce_ensures debug rfl inserted).mono _ fun e => Or.inl)
    intro s _ result
    refine ⟨fits, ?_, result.linked, result.perm.trans perm, ?_⟩
    · rw [if_neg kind]
      exact result.ledger
    · intro still
      have alone := still.resolve_left kind
      rw [result.unchanged alone.1 alone.2]
      exact ⟨rfl, pushFree_unusedRuns t run⟩

end Platypos.Memory
