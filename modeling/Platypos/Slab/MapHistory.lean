import Platypos.Library.Interleave
import Platypos.Slab.Decisions

namespace PlatyposSlab.Machine

open CasLoop TaggedStack Schedule Interleave

variable {V P : Type}

theorem issue_eq (s : System V P) (p : P) (action : Action V) :
    s.issue p action = (s.decision p action).bind Decision.issued := by
  have got : ∀ idx outcome, (s.got idx outcome).bind Decision.issued = none := by
    intro idx outcome
    cases outcome <;> rfl
  have removed : ∀ idx outcome, (System.removed idx outcome).bind Decision.issued = (none : Option (Issued V)) := by
    intro idx outcome
    cases outcome <;> rfl
  cases action with
  | advance spurious =>
    cases pc : s.pc p <;> simp only [System.issue, System.decision, pc, got, removed]
    case popLoad value => split <;> rfl
    all_goals rfl
  | get idx =>
    simp only [System.issue, System.decision]
    split
    · exact (got ..).symm
    · rfl
  | remove idx =>
    simp only [System.issue, System.decision]
    split
    · exact (removed ..).symm
    · rfl
  | insert value => rfl
  | drop idx => rfl

theorem new_fresh {size : Nat} {s : System V P} (constructed : System.new size = .ok s) :
    s = ⟨.fresh size, fun _ => .idle, 0⟩ := by
  unfold System.new Slab.new at constructed
  split at constructed <;> cases constructed
  rfl

variable [DecidableEq P]

theorem localPop_size {slab slab' : Slab V P} {p : P} {popped : Option Nat}
    (done : slab.localPop p = .ok (popped, slab')) : slab'.size = slab.size := by
  unfold Slab.localPop at done
  repeat' split at done
  all_goals cases done
  all_goals rfl

section Run

variable {debug : Bool} {s s' : System V P} {decisions : List (Decision V)} {issued : List (Issued V)} {p : P}
  {place : Nat → Place P} {cells : List Nat} {locals : P → List Nat} (mirrors : Mirrors s decisions)
  (valued : Valued s issued) (inv : Invariant s place cells locals)

include mirrors valued inv

theorem Mirrors.advance {spurious : Bool} (careful : s.Careful p) (advanced : s.advance debug p spurious = some s')
    (leaves : ∀ value i, s.pc p ≠ .allocFill value i) :
    Follows decisions (s.decision p (.advance spurious)) s' := by
  have still : ∀ (slab : Slab V P) (b : Pc V), slab.size = s.slab.size → slab.lifecycle = s.slab.lifecycle →
      slab.contents = s.slab.contents → (∀ value i, b ≠ .allocFill value i) →
      Follows decisions none ({ s with slab := slab }.setPc p b) := by
    intro slab b size lifecycle contents enters
    exact mirrors.quiet fun i g value => has_move size lifecycle contents leaves enters
  unfold System.advance at advanced
  cases pc : s.pc p with
  | idle => simp [pc] at advanced
  | popLoad value =>
    simp only [pc] at advanced
    simp only [System.decision, pc]
    split at advanced
    · rename_i empty
      cases advanced
      rw [if_pos empty]
      exact mirrors.answer rfl trivial fun i g value => has_move rfl rfl rfl leaves (by simp)
    · rename_i more
      cases advanced
      rw [if_neg more]
      exact still s.slab _ rfl rfl rfl (by simp)
  | popRead value old =>
    simp only [pc] at advanced
    simp only [System.decision, pc]
    split at advanced <;> cases advanced <;> exact still s.slab _ rfl rfl rfl (by simp)
  | popSwap value old new =>
    simp only [pc] at advanced
    simp only [System.decision, pc]
    split at advanced <;> cases advanced
    · exact still _ _ rfl rfl rfl (by simp)
    · exact still s.slab _ rfl rfl rfl (by simp)
  | allocLoad value i =>
    simp only [pc] at advanced
    simp only [System.decision, pc]
    split at advanced <;> cases advanced <;> exact still s.slab _ rfl rfl rfl (by simp)
  | allocStore value i new =>
    have suits := inv.suits (p := p) (i := i) (by rw [pc]; rfl)
    simp only [pc, Pc.Suits, Option.some.injEq] at advanced suits
    simp only [System.decision, pc]
    subst advanced
    refine mirrors.quiet fun j g value' => has_store (by simp [suits.1]) (fun _ => ⟨value, rfl⟩) leaves ?_
    intro value'' j' same
    cases same
    rfl
  | allocFill value i => exact absurd pc (leaves value i)
  | acquire idx proposal =>
    have returned := careful.2
    have inside := (inv.placed p).target idx.index (by rw [pc]; rfl)
    cases spurious <;> simp only [pc, Option.some.injEq, if_true, Bool.false_eq_true, if_false] at advanced returned
    · simp only [System.decision, pc]
      subst advanced
      exact mirrors.afterAcquire valued leaves inside (exchange_of ..) fun _ _ => returned
    · cases advanced
  | release idx proposal =>
    cases spurious <;> simp only [pc, Option.some.injEq, if_true, Bool.false_eq_true, if_false] at advanced
    · simp only [System.decision, pc]
      subst advanced
      exact mirrors.afterRelease leaves (exchange_of ..)
    · cases advanced
  | mark idx proposal =>
    have returned := careful.1
    have inside := (inv.placed p).target idx.index (by rw [pc]; rfl)
    simp only [System.Safe, pc, Option.some.injEq] at advanced returned
    simp only [System.decision, pc]
    subst advanced
    exact mirrors.afterMark valued leaves inside (exchange_of ..) fun _ _ _ => returned
  | clearLoad i =>
    simp only [pc] at advanced
    simp only [System.decision, pc]
    split at advanced <;> cases advanced <;> exact still s.slab _ rfl rfl rfl (by simp)
  | clearStore i new =>
    have suits := inv.suits (p := p) (i := i) (by rw [pc]; rfl)
    simp only [pc, Pc.Suits, Option.some.injEq] at advanced suits
    simp only [System.decision, pc]
    subst advanced
    exact mirrors.quiet fun j g value => has_store suits.1 (by simp [suits.2.2.1]) leaves (by simp)
  | clearTake i =>
    have suits := inv.suits (p := p) (i := i) (by rw [pc]; rfl)
    simp only [pc, Pc.Suits] at advanced suits
    simp only [System.decision, pc]
    split at advanced <;> cases advanced
    · exact still s.slab _ rfl rfl rfl (by simp)
    · refine mirrors.quiet fun j g value => has_take (by simp [suits.1]) leaves ?_
      split <;> simp
  | pushLocal i =>
    have inside := (inv.held (p := p) (i := i) (by rw [pc]; rfl)).1
    simp only [pc, Slab.localPush, if_pos inside] at advanced
    simp only [System.decision, pc]
    cases advanced
    exact still _ _ rfl rfl rfl (by simp)
  | pushTag i =>
    simp only [pc] at advanced
    simp only [System.decision, pc]
    cases advanced
    refine still _ _ rfl rfl rfl ?_
    repeat' split
    all_goals simp
  | pushLoad i t =>
    simp only [pc] at advanced
    simp only [System.decision, pc]
    cases advanced
    exact still s.slab _ rfl rfl rfl (by simp)
  | pushWrite i t old =>
    simp only [pc] at advanced
    simp only [System.decision, pc]
    split at advanced <;> cases advanced
    · exact still _ _ rfl rfl rfl (by simp)
    · exact still s.slab _ rfl rfl rfl (by simp)
  | pushSwap i t old =>
    simp only [pc] at advanced
    simp only [System.decision, pc]
    split at advanced <;> cases advanced
    · exact still _ _ rfl rfl rfl (by simp)
    · exact still s.slab _ rfl rfl rfl (by simp)
  | panicked reason => simp [pc] at advanced

end Run

section Step

variable {debug : Bool} {s s' : System V P} {decisions : List (Decision V)} {p : P} {place : Nat → Place P}
  {cells : List Nat} {locals : P → List Nat} (mirrors : Mirrors s decisions)
  (valued : Valued s (decisions.filterMap Decision.issued)) (inv : Invariant s place cells locals)

include mirrors valued inv

theorem Mirrors.fill {value : V} {i : Nat} {processor : Nat → Option P} (filling : s.pc p = .allocFill value i) :
    Follows decisions (some (.inserted i (s.slab.lifecycle i).generation value))
      ({ s with slab := { s.slab with
        contents := Function.update s.slab.contents i (some value), processor := processor } }.setPc p .idle) := by
  refine ⟨?_, ?_⟩
  · intro d settled
    obtain rfl := Option.mem_some.mp settled
    intro value' again
    have listed : ⟨i, (s.slab.lifecycle i).generation, value'⟩ ∈ decisions.filterMap Decision.issued :=
      List.mem_filterMap.mpr ⟨_, again, rfl⟩
    exact Nat.lt_irrefl _ ((valued.filling p value i filling).2 _ listed rfl)
  · intro j g value'
    rw [Option.toList_some, entries_snoc, Decision.effect, Entries.set_apply, has_fill inv filling]
    split
    · rw [Option.some.injEq]
    · exact mirrors j g value'

theorem Mirrors.step {action : Action V} (careful : s.Careful p) (stepped : s.step debug p action = some s') :
    Follows decisions (s.decision p action) s' := by
  cases action with
  | advance spurious =>
    by_cases fills : ∃ value i, s.pc p = .allocFill value i
    · obtain ⟨value, i, pc⟩ := fills
      simp only [System.step, System.advance, pc, Option.some.injEq] at stepped
      simp only [System.decision, pc]
      subst stepped
      exact mirrors.fill valued inv pc
    · exact mirrors.advance valued inv careful stepped fun value i pc => fills ⟨value, i, pc⟩
  | insert value =>
    cases pc : s.pc p <;> simp only [System.step, pc, reduceCtorEq] at stepped
    have leaves : ∀ value i, s.pc p ≠ .allocFill value i := by simp [pc]
    split at stepped <;> cases stepped
    · rename_i i slab popped
      obtain ⟨lifecycle, contents⟩ := localPop_unchanged popped
      exact mirrors.quiet fun _ _ _ => has_move (localPop_size popped) lifecycle contents leaves (by simp)
    · exact mirrors.quiet fun _ _ _ => has_move rfl rfl rfl leaves (by simp)
    · exact mirrors.quiet fun _ _ _ => has_move rfl rfl rfl leaves (by simp)
  | get idx =>
    cases pc : s.pc p <;> simp only [System.step, pc, reduceCtorEq] at stepped
    rw [System.decision]
    split at stepped <;> cases stepped
    · rename_i inside
      rw [if_pos inside]
      exact mirrors.afterAcquire valued (by simp [pc]) inside (consider_of _)
        fun _ committed => absurd committed consider_ne_committed
    · rename_i outside
      rw [if_neg outside]
      exact mirrors.answer rfl (mirrors.outside outside).symm fun _ _ _ => Iff.rfl
  | remove idx =>
    cases pc : s.pc p <;> simp only [System.step, pc, reduceCtorEq] at stepped
    rw [System.decision]
    split at stepped <;> cases stepped
    · rename_i inside
      rw [if_pos inside]
      exact mirrors.afterMark valued (by simp [pc]) inside (consider_of _)
        fun _ _ committed => absurd committed consider_ne_committed
    · rename_i outside
      rw [if_neg outside]
      have absent := mirrors.outside (g := idx.generation) outside
      refine mirrors.answer (Decision.effect_removed absent) ?_ fun _ _ _ => Iff.rfl
      rw [Decision.Fits, absent]
      rfl
  | drop idx =>
    cases pc : s.pc p <;> simp only [System.step, pc, reduceCtorEq] at stepped
    split at stepped
    · split at stepped <;> cases stepped
      · exact mirrors.afterRelease (by simp [pc]) (consider_of _)
      · exact mirrors.quiet fun _ _ _ => has_move rfl rfl rfl (by simp [pc]) (by simp)
    · cases stepped

end Step

section Pending

variable {debug : Bool} {s s' : System V P} {p : P}

@[simp] theorem pc_setPc (s : System V P) (p : P) (b : Pc V) : (s.setPc p b).pc p = b := Function.update_self ..

theorem pending_afterAcquire {idx : Idx} {outcome : Outcome (Lifecycle.acquireReference idx.generation)}
    (calm : ∀ reason, (s.afterAcquire p idx outcome).pc p ≠ .panicked reason) :
    [Action.get idx] =
      ((s.got idx outcome).map Decision.call).toList ++ ((s.afterAcquire p idx outcome).pc p).pending.toList := by
  cases outcome with
  | panicked reason => exact absurd (pc_setPc ..) (calm reason)
  | _ => simp [System.afterAcquire, System.got, Pc.pending, Decision.call]

theorem pending_afterRelease {idx : Idx} {outcome : Outcome (Lifecycle.releaseReference idx.generation)} :
    ((s.afterRelease p idx outcome).pc p).pending = none := by
  cases outcome with
  | committed new last => cases last <;> simp [System.afterRelease, Pc.pending]
  | _ => simp [System.afterRelease, Pc.pending]

theorem pending_afterMark {idx : Idx} {outcome : Outcome (Lifecycle.markUnallocated idx.generation)}
    (calm : ∀ reason, (s.afterMark p idx outcome).pc p ≠ .panicked reason) :
    [Action.remove idx] =
      ((System.removed idx outcome).map Decision.call).toList ++ ((s.afterMark p idx outcome).pc p).pending.toList := by
  cases outcome with
  | panicked reason => exact absurd (pc_setPc ..) (calm reason)
  | committed new unallocated =>
    cases unallocated <;> simp [System.afterMark, System.removed, Pc.pending, Decision.call]
  | _ => simp [System.afterMark, System.removed, Pc.pending, Decision.call]

theorem pending_advance {spurious : Bool} (advanced : s.advance debug p spurious = some s')
    (calm : ∀ reason, s'.pc p ≠ .panicked reason) :
    (s.pc p).pending.toList =
      ((s.decision p (.advance spurious)).map Decision.call).toList ++ (s'.pc p).pending.toList := by
  unfold System.advance at advanced
  cases pc : s.pc p with
  | acquire idx proposal =>
    cases spurious <;> simp only [pc, Option.some.injEq, if_true, Bool.false_eq_true, if_false] at advanced
    · simp only [System.decision, pc]
      subst advanced
      exact pending_afterAcquire calm
    · cases advanced
  | release idx proposal =>
    cases spurious <;> simp only [pc, Option.some.injEq, if_true, Bool.false_eq_true, if_false] at advanced
    · subst advanced
      rw [pending_afterRelease]
      simp [System.decision, pc, Pc.pending]
    · cases advanced
  | mark idx proposal =>
    simp only [pc, Option.some.injEq] at advanced
    simp only [System.decision, pc]
    subst advanced
    exact pending_afterMark calm
  | _ =>
    simp only [pc] at advanced
    repeat' split at advanced
    all_goals cases advanced
    all_goals simp_all [System.decision, Pc.pending, Decision.call]

/-- A processor has settled the calls that it began, but for the one it is at. -/
theorem pending_step {action : Action V} (stepped : s.step debug p action = some s')
    (calm : ∀ reason, s'.pc p ≠ .panicked reason) :
    (s.pc p).pending.toList ++ action.call.toList =
      ((s.decision p action).map Decision.call).toList ++ (s'.pc p).pending.toList := by
  cases action with
  | advance spurious =>
    simp only [Action.call, Option.toList_none, List.append_nil]
    exact pending_advance stepped calm
  | insert value =>
    cases pc : s.pc p <;> simp only [System.step, pc, reduceCtorEq] at stepped
    split at stepped <;> cases stepped
    · simp [Pc.pending, Action.call, System.decision]
    · simp [Pc.pending, Action.call, System.decision]
    · exact absurd (pc_setPc ..) (calm _)
  | get idx =>
    cases pc : s.pc p <;> simp only [System.step, pc, reduceCtorEq] at stepped
    rw [System.decision]
    split at stepped <;> cases stepped
    · rename_i inside
      rw [if_pos inside]
      exact pending_afterAcquire calm
    · rename_i outside
      rw [if_neg outside, pc]
      rfl
  | remove idx =>
    cases pc : s.pc p <;> simp only [System.step, pc, reduceCtorEq] at stepped
    rw [System.decision]
    split at stepped <;> cases stepped
    · rename_i inside
      rw [if_pos inside]
      exact pending_afterMark calm
    · rename_i outside
      rw [if_neg outside, pc]
      rfl
  | drop idx =>
    cases pc : s.pc p <;> simp only [System.step, pc, reduceCtorEq] at stepped
    split at stepped
    · split at stepped <;> cases stepped
      · rw [pending_afterRelease]
        rfl
      · exact absurd (pc_setPc ..) (calm _)
    · cases stepped

/-- The calls that a processor begins are those that it settles, in the same order, and the one it is at. -/
theorem pending_run {schedule : List (P × Action V)} (reached : s.run debug schedule = some s')
    (calm : ∀ reason, s'.pc p ≠ .panicked reason) :
    (s.pc p).pending.toList ++ (own p schedule).filterMap Action.call =
      (own p (s.decisions debug schedule)).map Decision.call ++ (s'.pc p).pending.toList := by
  induction schedule generalizing s with
  | nil =>
    cases reached
    simp [own, System.decisions]
  | cons first rest ih =>
    obtain ⟨q, action⟩ := first
    simp only [System.run, Option.bind_eq_bind, Option.bind_eq_some_iff] at reached
    obtain ⟨mid, stepped, reached⟩ := reached
    have calm' : ∀ reason, mid.pc p ≠ .panicked reason := by
      intro reason panicked
      exact calm reason (panicked_remains panicked reached)
    have later := ih reached
    rw [System.decisions, stepped, own_append]
    by_cases same : q = p
    · subst same
      have now := pending_step stepped calm'
      have head : (own q ((q, action) :: rest)).filterMap Action.call =
          action.call.toList ++ (own q rest).filterMap Action.call := by
        rw [own_cons_self, List.filterMap_cons]
        cases action.call <;> rfl
      rw [head, ← List.append_assoc, now, List.append_assoc, later, own_map_self, List.map_append, ← List.append_assoc]
      cases s.decision q action <;> rfl
    · rw [own_cons_of_ne same, own_map_of_ne same, List.nil_append, ← later, step_other (Ne.symm same) stepped]

end Pending

theorem Mirrors.run {debug : Bool} {s s' : System V P} {decisions : List (Decision V)} {place : Nat → Place P}
    {cells : List Nat} {locals : P → List Nat} (mirrors : Mirrors s decisions) (sequential : Sequential decisions)
    (valued : Valued s (decisions.filterMap Decision.issued)) (inv : Invariant s place cells locals)
    {schedule : List (P × Action V)}
    (careful : Meets (fun s a => s.step debug a.1 a.2) (fun s a => s.Careful a.1) s schedule)
    (reached : s.run debug schedule = some s') (room : ∀ q, s'.pc q ≠ .panicked .tagOverflow) :
    Sequential (decisions ++ (s.decisions debug schedule).map Prod.snd) ∧
      Mirrors s' (decisions ++ (s.decisions debug schedule).map Prod.snd) := by
  induction schedule generalizing s decisions place cells locals with
  | nil =>
    cases reached
    rw [System.decisions, List.map_nil, List.append_nil]
    exact ⟨sequential, mirrors⟩
  | cons first rest ih =>
    obtain ⟨p, action⟩ := first
    simp only [System.run, Option.bind_eq_bind, Option.bind_eq_some_iff] at reached
    obtain ⟨mid, stepped, reached⟩ := reached
    have room' : ∀ q, mid.pc q ≠ .panicked .tagOverflow := by
      intro q panicked
      exact room q (panicked_remains panicked reached)
    obtain ⟨_, _, _, kept⟩ := inv.step careful.1.1 stepped room'
    have follows := mirrors.step valued inv careful.1 stepped
    have valued' : Valued mid ((decisions ++ (s.decision p action).toList).filterMap Decision.issued) := by
      have last : (s.decision p action).toList.filterMap Decision.issued = (s.issue p action).toList := by
        rw [issue_eq]
        cases s.decision p action with
        | none => rfl
        | some d => cases d <;> rfl
      rw [List.filterMap_append, last]
      exact valued.step inv careful.1 stepped
    have sequential' : Sequential (decisions ++ (s.decision p action).toList) := by
      cases settled : s.decision p action with
      | none => rwa [Option.toList_none, List.append_nil]
      | some d => exact sequential.snoc (follows.fits d settled)
    rw [System.decisions, stepped, List.map_append, List.map_map, ← List.append_assoc]
    have same : (s.decision p action).toList.map (Prod.snd ∘ (p, ·)) = (s.decision p action).toList :=
      List.map_id _
    rw [same]
    exact ih follows.mirrors sequential' valued' kept (careful.2 mid stepped) reached

/-- However processors interleave, the answers that they get are those of one plain map that is used by one call at a
    time, in the order of the steps that settle the calls. Each call is settled once, after it began and before it
    returns. -/
theorem history_of_map (debug : Bool) {size : Nat} (positive : 0 < size) {s₀ s : System V P}
    (constructed : System.new size = .ok s₀) (schedule : List (P × Action V))
    (careful : Meets (fun s a => s.step debug a.1 a.2) (fun s a => s.Careful a.1) s₀ schedule)
    (reached : s₀.run debug schedule = some s) (room : ∀ q, s.pc q ≠ .panicked .tagOverflow) :
    Sequential ((s₀.decisions debug schedule).map Prod.snd) ∧
      (∀ i g value, entries ((s₀.decisions debug schedule).map Prod.snd) i g = some value ↔ s.Has i g value) ∧
      ∀ p, (∀ reason, s.pc p ≠ .panicked reason) →
        (own p schedule).filterMap Action.call =
          (own p (s₀.decisions debug schedule)).map Decision.call ++ (s.pc p).pending.toList := by
  obtain ⟨_, _, _, inv⟩ := new_invariant positive constructed
  have fresh := new_fresh constructed
  have mirrors : Mirrors s₀ [] := by
    intro i g value
    refine iff_of_false (by simp [entries]) ?_
    intro has
    have state := has.state
    rw [fresh] at state
    cases state
  have sequential : Sequential ([] : List (Decision V)) := by
    intro past d rest split
    simp at split
  obtain ⟨answers, final⟩ := mirrors.run sequential (new_valued constructed) inv careful reached room
  refine ⟨answers, final, ?_⟩
  intro p calm
  have calls := pending_run reached calm
  have idle : (s₀.pc p).pending = none := by
    rw [fresh]
    rfl
  rwa [idle, Option.toList_none, List.nil_append] at calls

theorem history_of_map_removed :
    ∃ (idx : Idx) (s₀ s : System Nat Bool), System.new 1 = .ok s₀ ∧ s₀.run true (lastReference idx) = some s ∧
      s₀.decisions true (lastReference idx) =
        [(false, .inserted 0 1 7), (true, .got idx (some 7)), (false, .removed idx true)] ∧
      Sequential ((s₀.decisions true (lastReference idx)).map Prod.snd) := by
  refine ⟨⟨1, 0, by decide, by decide⟩, _, _, rfl, rfl, rfl, ?_⟩
  refine (@history_of_map Nat Bool _ true 1 (by decide) _ _ rfl _ lastReference_careful rfl ?_).1
  intro q panicked
  cases q <;> cases panicked

end PlatyposSlab.Machine
