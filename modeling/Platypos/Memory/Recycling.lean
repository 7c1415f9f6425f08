import Platypos.Memory.Representation

namespace Platypos.Memory

open Outcome Exec

def Clean (s : AllocatorInner) : Prop := ∀ run ∈ s.tracking.unusedRuns, (s.arena run).status = .unused

/-- A call after which `coalesce` merges no descriptor away: the run that `deallocate` frees has no free
    neighbour touching it. -/
def Quiet (s : AllocatorInner) : Call → Prop
  | .allocate _ => True
  | .deallocate range => ∀ pre post, s.ledger = pre ++ ⟨range, .allocated⟩ :: post → (∀ x ∈ pre, x.range ≠ range) →
      (∀ next ∈ post.head?, ¬ Ledger.Touches ⟨range, .free⟩ next) ∧
        ∀ prev ∈ pre.getLast?, ¬ Ledger.Touches prev ⟨range, .free⟩

def QuietRun (debug : Bool) : AllocatorInner → List Call → Prop
  | _, [] => True
  | s, call :: calls => ∀ reply s', s.call debug call = .ok (reply, s') → Quiet s call ∧ QuietRun debug s' calls

theorem NoneRetired.clean {s s' : AllocatorInner} (kept : NoneRetired s s') (clean : Clean s) : Clean s' := by
  intro run unused
  obtain ⟨before, same⟩ := kept run unused
  rw [same]
  exact clean run before

theorem Kept.retired {s s' : AllocatorInner} (kept : Kept s s') (fewer : s'.runs.length < s.runs.length) :
    ∃ run ∈ s'.tracking.unusedRuns, run ∈ s.runs := by
  have lengths := kept.perm.length_eq
  simp only [List.length_append] at lengths
  have nodup : s'.tracking.unusedRuns.Nodup := (List.nodup_append.mp kept.linked.nodup).2.1
  by_contra none
  have inside : s'.tracking.unusedRuns ⊆ s.tracking.unusedRuns := by
    intro run unused
    have whole : run ∈ s.runs ++ s.tracking.unusedRuns := kept.perm.mem_iff.mp (by simp [unused])
    rw [List.mem_append] at whole
    exact whole.resolve_left fun member => none ⟨run, unused, member⟩
  have bound := (nodup.subperm inside).length_le
  omega

namespace Ledger

theorem absorbNext_length (x : RunState) (post : Ledger) :
    (absorbNext x post).2.length ≤ post.length ∧
      ((∃ next ∈ post.head?, Touches x next) → (absorbNext x post).2.length < post.length) := by
  cases post with
  | nil => simp [absorbNext]
  | cons next rest =>
    by_cases touching : Touches x next
    · simp [absorbNext_touching touching]
    · rw [absorbNext_apart (by simpa using touching)]
      simpa using touching

theorem absorbPrev_length (pre : Ledger) (x : RunState) :
    (absorbPrev pre x).1.length ≤ pre.length ∧
      ((∃ prev ∈ pre.getLast?, Touches prev x) → (absorbPrev pre x).1.length < pre.length) := by
  rcases List.eq_nil_or_concat pre with rfl | ⟨front, prev, rfl⟩
  · simp [absorbPrev]
  · rw [List.concat_eq_append]
    by_cases touching : Touches prev x
    · simp [absorbPrev_touching touching]
    · rw [absorbPrev_apart (by simpa using touching)]
      simpa using touching

theorem settle_shorter {pre post : Ledger} {x : RunState}
    (touching : (∃ next ∈ post.head?, Touches x next) ∨ ∃ prev ∈ pre.getLast?, Touches prev x) :
    (settle pre x post).length < (pre ++ x :: post).length := by
  have next := absorbNext_length x post
  have prev := absorbPrev_length pre (absorbNext x post).1
  have kind := (absorbNext_joins [] x post).1
  have start : (absorbNext x post).1.start = x.start := by
    cases post with
    | nil => rfl
    | cons y rest =>
      simp only [absorbNext]
      split <;> rfl
  have left : ∀ y, Touches y (absorbNext x post).1 ↔ Touches y x := by
    intro y
    simp only [Touches, kind, start]
  simp only [left] at prev
  simp only [settle, List.length_append, List.length_cons]
  rcases touching with touching | touching
  · have shorter := next.2 touching
    omega
  · have shorter := prev.2 touching
    omega

end Ledger

theorem takeWhile_of_skipped {l pre post : Ledger} {range : PageFrameRange} {status : Status}
    (split : l = pre ++ ⟨range, status⟩ :: post) (skipped : ∀ x ∈ pre, x.range ≠ range) :
    l.takeWhile (fun x => decide (x.range ≠ range)) = pre := by
  rw [split, List.takeWhile_append_of_pos (by simpa using skipped)]
  simp

section Calls

variable {debug : Bool} {entries : List RunId} {memory : Nat → Prop} {tracking : PageFrameRange}
  {out : Multiset PageFrameRange} {s s' : AllocatorInner}

theorem Deallocated.clean_iff {range : PageFrameRange} (held : Represents entries memory tracking out s)
    (done : Deallocated s range s') (clean : Clean s) : Clean s' ↔ Quiet s (.deallocate range) := by
  obtain ⟨pre, post, before, skipped, after, untouched⟩ := done.ledger
  have unique : Quiet s (.deallocate range) ↔ (∀ next ∈ post.head?, ¬ Ledger.Touches ⟨range, .free⟩ next) ∧
      ∀ prev ∈ pre.getLast?, ¬ Ledger.Touches prev ⟨range, .free⟩ := by
    constructor
    · intro quiet
      exact quiet pre post before skipped
    · intro apart pre' post' before' skipped'
      have front : pre' = pre :=
        (takeWhile_of_skipped before' skipped').symm.trans (takeWhile_of_skipped before skipped)
      rw [before, front, List.append_cancel_left_eq, List.cons.injEq] at before'
      rw [front, ← before'.2]
      exact apart
  rw [unique]
  constructor
  · intro clean'
    by_contra touching
    have merged : (∃ next ∈ post.head?, Ledger.Touches ⟨range, .free⟩ next) ∨
        ∃ prev ∈ pre.getLast?, Ledger.Touches prev ⟨range, .free⟩ := by
      by_contra apart
      apply touching
      simpa only [not_or, not_exists, not_and] using apart
    have shorter := Ledger.settle_shorter merged
    rw [← after] at shorter
    have fewer : s'.runs.length < s.runs.length := by
      have whole := congrArg List.length before
      simp only [AllocatorInner.ledger, List.length_map, List.length_append, List.length_cons] at whole shorter
      omega
    obtain ⟨run, unused, member⟩ := done.retired fewer
    have used : (s.arena run).status ≠ .unused :=
      held.sound.inUse _ (List.mem_map_of_mem member)
    exact done.inUse run used (clean' run unused)
  · intro apart
    exact (untouched apart.1 apart.2).clean clean

theorem Called.clean_iff (held : Represents entries memory tracking out s) (clean : Clean s) {call : Call}
    {reply : Reply} (called : Called s call reply s') : Clean s' ↔ Quiet s call := by
  cases called with
  | insufficient => simpa [Quiet] using clean
  | allocated count range _ granted => simpa [Quiet] using granted.noneRetired.clean clean
  | rejected range e refused =>
    refine iff_of_true clean ?_
    intro pre post split skipped
    exfalso
    rcases refused with ⟨_, unknown⟩ | ⟨_, pre', ⟨_, status⟩, post', split', skipped', rfl, unallocated⟩
    · exact unknown ⟨range, .allocated⟩ (by simp [split]) rfl
    · have front : pre' = pre :=
        (takeWhile_of_skipped split' skipped').symm.trans (takeWhile_of_skipped split skipped)
      rw [split, front, List.append_cancel_left_eq, List.cons.injEq, RunState.mk.injEq] at split'
      exact unallocated split'.1.2.symm
  | deallocated range _ released => exact released.clean_iff held clean

theorem always_clean_iff (debug : Bool) (held : Represents entries memory tracking out s) (calls : List Call) :
    Always (AllocatorInner.call debug) Clean s calls ↔ Clean s ∧ QuietRun debug s calls := by
  induction calls generalizing out s with
  | nil => simp [always_nil, QuietRun]
  | cons call calls ih =>
    rw [always_cons, QuietRun]
    apply and_congr_right
    intro clean
    apply forall₃_congr
    intro reply s' step
    have called : Called s call reply s' := (held.call_ensures debug call).of_ok step
    rw [ih (held.called called), called.clean_iff held clean]

theorem exec_of_clean (debug : Bool) (held : Represents entries memory tracking out s) (calls : List Call)
    (always : Always (AllocatorInner.call debug) Clean s calls) :
    exec (AllocatorInner.call debug) s calls ≠ .error .reinitialized := by
  induction calls generalizing out s with
  | nil => simp [exec]
  | cons call calls ih =>
    rw [always_cons] at always
    cases step : s.call debug call with
    | error e =>
      intro failed
      simp only [exec, step, Bind.bind, Except.bind, Except.error.injEq] at failed
      subst failed
      have cause := (held.call_ensures debug call).of_error step
      rcases cause with impossible | ⟨impossible, _⟩ | ⟨_, _, run, unused, stale⟩
      · cases impossible
      · cases impossible
      · exact stale (always.1 run unused)
    | ok r =>
      have called : Called s call r.1 r.2 := (held.call_ensures debug call).of_ok step
      have rest := ih (held.called called) (always.2 r.1 r.2 step)
      rw [exec_cons_of_ok step]
      intro failed
      apply rest
      cases run : exec (AllocatorInner.call debug) r.2 calls with
      | ok _ => simp [run, Except.map] at failed
      | error e => simpa [run, Except.map] using failed

end Calls

def Apart (ranges : List PageFrameRange) : Prop :=
  ranges.Pairwise fun r r' => r.limit ≠ r'.start ∧ r'.limit ≠ r.start

/-- While nothing has been merged, every free run is a range that was handed over. -/
structure Unmerged (handed : List PageFrameRange) (s : AllocatorInner) : Prop where
  clean : Clean s
  free : ∀ x ∈ s.ledger, x.status = .free → x.range ∈ handed

theorem Unmerged.received {handed : List PageFrameRange} {range : PageFrameRange} {s s' : AllocatorInner}
    (unmerged : Unmerged handed s) (received : Received s ⟨range, .free⟩ s')
    (apart : ∀ r ∈ handed, r.limit ≠ range.start ∧ range.limit ≠ r.start) : Unmerged (handed ++ [range]) s' := by
  have untouched : ∀ x ∈ s.ledger,
      ¬ Ledger.Touches ⟨range, .free⟩ x ∧ ¬ Ledger.Touches x ⟨range, .free⟩ := by
    intro x member
    constructor
    · intro touching
      exact (apart _ (unmerged.free x member touching.1)).2 touching.2.symm
    · intro touching
      exact (apart _ (unmerged.free x member touching.1.symm)).1 touching.2.symm
  refine ⟨(received.noneRetired untouched).clean unmerged.clean, ?_⟩
  have earlier := unmerged.free
  have step := received.ledger
  generalize s.ledger = l at untouched earlier step
  generalize s'.ledger = l' at step
  obtain ⟨pre, _, post, _, _⟩ := step
  rw [Ledger.settle_apart]
  · intro x member kind
    simp only [List.mem_append, List.mem_cons] at member
    rw [List.mem_append, List.mem_singleton]
    rcases member with member | rfl | member
    · exact .inl (earlier x (by simp [member]) kind)
    · exact .inr rfl
    · exact .inl (earlier x (by simp [member]) kind)
  · intro y first
    exact (untouched y (by simp [List.mem_of_mem_head? first])).1
  · intro y last
    exact (untouched y (by simp [List.mem_of_mem_getLast? last])).2

theorem initialise_clean {debug : Bool} {sizeOfRun : Nat} {access : MemoryAccess} {tracking : PageFrameRange}
    {ranges : List PageFrameRange} {s : AllocatorInner} (apart : Apart ranges)
    (built : initialise debug sizeOfRun access tracking ranges = .ok (.ok s)) : Clean s := by
  apply Unmerged.clean
  apply initialise_property (fun handed s => Apart handed → Unmerged handed s) _ _ built apart
  · intro handed range s s' _ unmerged received apart
    have parts := List.pairwise_append.mp apart
    exact (unmerged parts.1).received received fun r earlier => parts.2.2 r earlier range (by simp)
  · intro s tracked _
    refine ⟨tracked.unused, ?_⟩
    intro x member kind
    simp only [tracked.ledger, List.mem_singleton] at member
    simp [member] at kind

/-- Unused descriptors stay unused exactly as long as no call merges one away, and until then
    `Run::initialize` is safe. -/
theorem unused_clean_iff_quiet {debug : Bool} {sizeOfRun : Nat} {access : MemoryAccess}
    {tracking : PageFrameRange} {ranges : List PageFrameRange} {s : AllocatorInner}
    (built : initialise debug sizeOfRun access tracking ranges = .ok (.ok s)) (calls : List Call) :
    (Always (AllocatorInner.call debug) Clean s calls ↔ Clean s ∧ QuietRun debug s calls) ∧
      (Clean s → QuietRun debug s calls →
        exec (AllocatorInner.call debug) s calls ≠ .error .reinitialized) ∧
      (Apart ranges → Clean s) := by
  have held := initialise_represents built
  have meaning := always_clean_iff debug held calls
  refine ⟨meaning, ?_, fun apart => initialise_clean apart built⟩
  intro clean quiet
  exact exec_of_clean debug held calls (meaning.mpr ⟨clean, quiet⟩)

theorem unused_clean_whole_run :
    ∃ s, initialise true 64 ⟨0⟩ ⟨0, 1⟩ [⟨10, 5⟩] = .ok (.ok s) ∧
      Always (AllocatorInner.call true) Clean s [.allocate 5, .deallocate ⟨10, 5⟩] := by
  refine ⟨_, rfl, ?_⟩
  have spec := @unused_clean_iff_quiet true 64 ⟨0⟩ ⟨0, 1⟩ [⟨10, 5⟩] _ rfl [.allocate 5, .deallocate ⟨10, 5⟩]
  refine spec.1.mpr ⟨spec.2.2 (List.pairwise_singleton _ _), ?_⟩
  intro reply s' allocated
  refine ⟨trivial, fun reply' s'' _ => ⟨?_, trivial⟩⟩
  obtain ⟨rfl, rfl⟩ := Prod.mk.inj (Except.ok.inj allocated)
  intro pre post split _
  have position : [⟨⟨0, 1⟩, .tracking⟩, ⟨⟨10, 5⟩, .allocated⟩] = pre ++ ⟨⟨10, 5⟩, .allocated⟩ :: post := split
  simp only [List.cons_eq_append_iff, List.nil_eq_append_iff] at position
  rcases position with ⟨_, bad⟩ | ⟨pre', rfl, ⟨rfl, same⟩ | ⟨pre'', _, bad⟩⟩
  · simp at bad
  · cases same
    simp [Ledger.Touches]
  · simp at bad

def cycles (n : Nat) : List Call := (List.replicate n [Call.allocate 2, .deallocate ⟨10, 2⟩]).flatten

/-- The first merge leaves a free descriptor among the unused ones, and once the initial stock is used up it
    is taken again. -/
theorem merged_descriptor_reinitialized :
    ∃ s, initialise true 64 ⟨0⟩ ⟨0, 1⟩ [⟨10, 5⟩] = .ok (.ok s) ∧
      (∃ replies s', exec (AllocatorInner.call true) s (cycles 1) = .ok (replies, s') ∧ ¬ Clean s') ∧
      exec (AllocatorInner.call true) s (cycles 62 ++ [.allocate 2]) = .error .reinitialized := by
  refine ⟨_, rfl, ⟨_, _, rfl, ?_⟩, ?_⟩
  · intro clean
    exact absurd (clean 128 (by decide)) (by decide)
  · apply eq_error_of_failure
    decide +kernel

end Platypos.Memory
