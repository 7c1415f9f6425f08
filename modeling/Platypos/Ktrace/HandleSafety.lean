import Platypos.Ktrace.HandleReturn
import Platypos.Ktrace.SpanIds

namespace Platypos.Ktrace.Handles

open CasLoop Chain Outcome Exec

open PlatyposSlab (EMPTY Idx Lifecycle Slab Place Shelves Book globalCell localCell)

section Steps

variable {V P T : Type} [DecidableEq P] [DecidableEq T] {span : Idx} {value : V} {s s' : System V P T span}
  {stage : Stage T} {refs : Finset T} {place : Nat → Place P} {cells : List Nat} {locals : P → List Nat} {t : T}
  {on : T → P} {debug : Bool} (inv : Invariant value s stage refs place cells locals)

include inv

theorem Invariant.advance {spurious : Bool} (within : s.Within (t, .advance spurious))
    (advanced : s.advance on debug t spurious = some s') :
    Coherent value s' := by
  have returns : ∀ resume, (s.pc t).duty = .returning resume → s.returnSlot on debug t (s.pc t) = some s' →
      Coherent value s' := by
    intro resume duty stepped
    have suits := inv.suits (t := t)
    rw [duty] at suits
    obtain ⟨c, rfl⟩ := suits
    have room : ∀ resume, s.pc t = .pushTag resume → s.slab.tag < 2^46 := by
      intro resume' pc
      simpa only [System.Within, pc] using within
    obtain ⟨stage', place', cells', locals', kept⟩ := inv.returnSlot room stepped
    exact ⟨stage', refs, place', cells', locals', kept⟩
  have thread := inv.threads t
  unfold System.advance at advanced
  cases pc : s.pc t with
  | idle | panicked reason =>
    rw [pc] at advanced
    cases advanced
  | getting call proposal =>
    simp only [System.Within, pc] at within
    rw [pc] at advanced thread
    dsimp only at advanced
    split at advanced
    · cases advanced
    · cases advanced
      obtain ⟨refs', kept⟩ := inv.afterGet (t := t) (thread.handle trivial) (by rw [pc]; rfl) (by rw [pc]; exact id) within
        (exchange_of proposal false s.lifecycle)
      exact ⟨_, refs', _, _, _, kept⟩
  | counting call =>
    rw [pc] at advanced
    cases call with
    | cloneSpan =>
      simp only [System.Within, pc] at within
      cases advanced
      exact ⟨_, _, _, _, _, inv.countClone pc within⟩
    | tryClose =>
      cases advanced
      obtain ⟨stage', kept⟩ := inv.countClose pc
      exact ⟨stage', _, _, _, _, kept⟩
  | dropping after =>
    rw [pc] at advanced
    simp only [if_pos inv.inside] at advanced
    cases advanced
    obtain ⟨stage', refs', kept⟩ := inv.afterRelease (t := t) (by rw [pc]; trivial) (by rw [pc]; rfl)
      (consider_of s.lifecycle)
    exact ⟨stage', refs', _, _, _, kept⟩
  | releasing after proposal =>
    rw [pc] at advanced
    dsimp only at advanced
    split at advanced
    · cases advanced
    · cases advanced
      obtain ⟨stage', refs', kept⟩ := inv.afterRelease (t := t) (by rw [pc]; trivial) (by rw [pc]; rfl)
        (exchange_of proposal false s.lifecycle)
      exact ⟨stage', refs', _, _, _, kept⟩
  | removing =>
    rw [pc] at advanced
    simp only [if_pos inv.inside] at advanced
    cases advanced
    obtain ⟨stage', kept⟩ := inv.afterMark (t := t) (by rw [pc]; rfl) (by rw [pc]; exact id) (consider_of s.lifecycle)
    exact ⟨stage', _, _, _, _, kept⟩
  | marking proposal =>
    rw [pc] at advanced
    cases advanced
    obtain ⟨stage', kept⟩ := inv.afterMark (t := t) (by rw [pc]; rfl) (by rw [pc]; exact id)
      (exchange_of proposal spurious s.lifecycle)
    exact ⟨stage', _, _, _, _, kept⟩
  | clearLoad resume | clearStore resume new | clearTake resume | pushLocal resume | pushTag resume | pushLoad resume tag
    | pushWrite resume tag oldHead | pushSwap resume tag oldHead =>
    rw [pc] at advanced
    exact returns resume (by rw [pc]; rfl) (by rw [pc]; exact advanced)

theorem Invariant.step {move : T × Action T} (within : s.Within move) (stepped : s.step on debug move = some s') :
    Coherent value s' := by
  obtain ⟨t, action⟩ := move
  cases action with
  | advance spurious => exact inv.advance within stepped
  | call call =>
    cases pc : s.pc t with
    | idle =>
      simp only [System.step, pc, if_pos inv.inside] at stepped
      split at stepped
      · rename_i held
        cases stepped
        obtain ⟨refs', kept⟩ := inv.afterGet (t := t) held (by rw [pc]; rfl) (by rw [pc]; exact id) within
          (consider_of s.lifecycle)
        exact ⟨_, refs', _, _, _, kept⟩
      · cases stepped
    | _ =>
      simp only [System.step, pc] at stepped
      cases stepped
  | pass receiver =>
    cases pc : s.pc t with
    | idle =>
      simp only [System.step, pc] at stepped
      split at stepped
      · rename_i held
        cases stepped
        exact ⟨_, _, _, _, _, inv.pass pc held⟩
      · cases stepped
    | _ =>
      simp only [System.step, pc] at stepped
      cases stepped

end Steps

/-- Following the `next` fields from the global head, or from the head of a processor, one comes to the slot. -/
def OnFreeList {V P : Type} (slab : Slab V P) (i : Nat) : Prop :=
  (∃ cells, Linked globalCell slab.next slab.head cells ∧ i ∈ cells) ∨
    ∃ p cells, Linked localCell slab.next ((slab.heads p).getD EMPTY) cells ∧ i ∈ cells

/-- The handles are counted and the span goes once: `get` never fails, `try_close` returns true for the call that
    observes one handle and only when no handle is left, and with the handles and the calls gone, `remove` has been
    called once and the contents dropped once, and the slot is free. -/
structure ClosedOnce {V P T : Type} {span : Idx} (value : V) (s : System V P T span) : Prop where
  found : s.trace.refused = []
  calm : ∀ t reason, s.pc t ≠ .panicked reason
  honest : s.trace.Honest
  once : s.trace.last.length ≤ 1 ∧ s.trace.removing.length ≤ 1 ∧ s.trace.dropped.length ≤ 1
  alone : s.trace.last ≠ [] ∨ s.trace.removing ≠ [] → s.handles = 0
  removed : ∀ e ∈ s.trace.removed, e.2 = true
  quiescent : s.handles = 0 → (∀ t, s.pc t = .idle) →
    ∃ t, s.trace.last = [t] ∧ s.trace.removing = [t] ∧ s.trace.removed = [(t, true)] ∧ s.trace.dropped = [value] ∧
      s.slab.contents span.index = none ∧ OnFreeList s.slab span.index

section Runs

variable {V P T : Type} [DecidableEq T] {span : Idx} {value : V} {s : System V P T span}
  {stage : Stage T} {refs : Finset T} {place : Nat → Place P} {cells : List Nat} {locals : P → List Nat}

theorem Invariant.onFreeList {c : T} (inv : Invariant value s (.free c) refs place cells locals) :
    OnFreeList s.slab span.index := by
  have listed := inv.listed.mpr ⟨c, rfl⟩
  cases here : place span.index with
  | inUse | held p =>
    rw [here] at listed
    exact listed.elim
  | global => exact .inl ⟨cells, inv.shelves.globalLinked, (inv.shelves.mem_global _).mpr ⟨inv.inside, here⟩⟩
  | «local» p => exact .inr ⟨p, locals p, inv.shelves.localLinked p, (inv.shelves.mem_local p _).mpr ⟨inv.inside, here⟩⟩

theorem Invariant.closedOnce (inv : Invariant value s stage refs place cells locals) : ClosedOnce value s := by
  have facts := inv.facts
  have idle : (∀ t, s.pc t = .idle) → ∀ t, stage.duty t = .none := by
    intro idle t
    rw [← (inv.threads t).duty, idle t]
    rfl
  cases stage with
  | live =>
    obtain ⟨handles, _, _, shows⟩ := facts
    refine ⟨inv.clean, fun _ => inv.calm, inv.honest, ?_, ?_, ?_, fun none => absurd none handles⟩
    · simp [shows.last, shows.removing, shows.dropped]
    · simp [shows.last, shows.removing]
    · simp [shows.removed]
  | closing t =>
    obtain ⟨handles, _, _, shows⟩ := facts
    refine ⟨inv.clean, fun _ => inv.calm, inv.honest, ?_, fun _ => handles, ?_, ?_⟩
    · simp [shows.last, shows.removing, shows.dropped]
    · simp [shows.removed]
    · intro _ quiet
      simpa [Stage.duty] using idle quiet t
  | removing t =>
    obtain ⟨handles, _, _, shows⟩ := facts
    refine ⟨inv.clean, fun _ => inv.calm, inv.honest, ?_, fun _ => handles, ?_, ?_⟩
    · simp [shows.last, shows.removing, shows.dropped]
    · simp [shows.removed]
    · intro _ quiet
      simpa [Stage.duty] using idle quiet t
  | zombie c =>
    obtain ⟨handles, _, positive, _, shows⟩ := facts
    refine ⟨inv.clean, fun _ => inv.calm, inv.honest, ?_, fun _ => handles, ?_, ?_⟩
    · simp [shows.last, shows.removing, shows.dropped]
    · simp [shows.removed]
    · intro _ quiet
      -- a zombie has a reference, and its holder is in a call
      rw [inv.refcount] at positive
      obtain ⟨t, member⟩ := Finset.card_pos.mp positive
      have held := (inv.threads t).ref.mp member
      rw [quiet t] at held
      exact held.elim
  | returning t resume c =>
    obtain ⟨handles, _, _, ready, removing, concluded⟩ := facts
    refine ⟨inv.clean, fun _ => inv.calm, inv.honest, ⟨?_, ?_, ?_⟩, fun _ => handles, ?_, ?_⟩
    · cases resume with
      | dropped after => simp [concluded.2.2]
      | removed => simp [concluded.2.2]
    · simp [removing]
    · cases pc : s.pc t <;> rw [pc] at ready <;> simp_all [Ready]
    · cases resume with
      | dropped after => simp [concluded.2.1]
      | removed => simp [concluded.2.1]
    · intro _ quiet
      simpa [Stage.duty] using idle quiet t
  | free c =>
    obtain ⟨handles, _, _, contents, shows⟩ := facts
    refine ⟨inv.clean, fun _ => inv.calm, inv.honest, ?_, fun _ => handles, ?_, ?_⟩
    · simp [shows.last, shows.removing, shows.dropped]
    · simp [shows.removed]
    · exact fun _ _ => ⟨c, shows.last, shows.removing, shows.removed, shows.dropped, contents, inv.onFreeList⟩

end Runs

section Spans

variable {P T : Type} [DecidableEq P] [DecidableEq T]

omit [DecidableEq P] in
theorem created_coherent {k : KTrace P} {b : Book (Metadata Str)} {span : Idx} {metadata : Metadata Str}
    {rest : List (Idx × Metadata Str)} (tracks : k.Tracks b) (issued : b.issued = (span, metadata) :: rest)
    (present : span ∉ b.removed) (one : k.references span.index = 1) (t : T) :
    Coherent metadata (System.created span k.spans.slab (k.references span.index) t) := by
  have live : b.Live span := ⟨by simp [issued], present⟩
  obtain ⟨inside, state, generation⟩ := (tracks.faithful.live_iff span).mp live
  have agrees := tracks.faithful.agrees span.index inside
  have refcount : (k.spans.slab.lifecycle span.index).refcount = 0 := by
    rw [agrees.counted.count, tracks.idle]
    rfl
  have contents : k.spans.slab.contents span.index = some metadata := by
    obtain ⟨e, member, index, current, held⟩ := agrees.current (by rw [state]; exact nofun)
    have same : e.1 = span := Idx.eq_of_fields (current.trans generation) index
    have keys := tracks.faithful.keys
    rw [issued] at member keys
    rcases List.mem_cons.mp member with rfl | older
    · exact held
    · rw [List.map_cons, List.nodup_cons] at keys
      exact absurd (List.mem_map_of_mem older) (same ▸ keys.1)
  obtain ⟨place, cells, locals, filed⟩ := tracks.faithful.filed
  refine ⟨.live, ∅, place, cells, locals, filed.fits, inside, filed.shelves, ?_, generation, refcount, ?_, ?_, ?_, rfl, nofun⟩
  · rw [← filed.listed span.index inside, state]
    simp
  · rw [one]
    rfl
  · exact fun _ => ⟨rfl, by simp [System.created, Pc.HoldsRef], nofun⟩
  · exact ⟨Multiset.singleton_ne_zero t, state, contents, rfl, rfl, rfl, rfl⟩

theorem newSpan_created {debug : Bool} {k : KTrace P} {b : Book (Metadata Str)} (tracks : k.Tracks b) (p : P)
    (attributes : Attributes) :
    Ensures (k.step debug (.newSpan p attributes))
      (fun r => ∀ span id sent, r.1 = ⟨.created span id, sent⟩ → r.2.references span.index = 1 ∧
        ∃ b', r.2.Tracks b' ∧ b'.issued = (span, attributes.metadata) :: b.issued ∧ b'.removed = b.removed)
      (· ≠ .zeroId) := by
  apply (KTrace.newSpan_tracks debug tracks p attributes).bind
  intro r spec span id sent same
  obtain ⟨idx, answer, _, _, references, b', kept, issued, removed⟩ := spec
  obtain ⟨⟨idx', id'⟩, sent', k'⟩ := r
  cases same
  cases answer
  refine ⟨?_, b', kept, issued, removed⟩
  exact (congrFun references idx.index).trans (Function.update_self ..)

/-- Below the limits a span is closed once, whatever its handles' threads do, in every state that they reach. -/
theorem span_closed_once (debug : Bool) (on : T → P) {k₀ k₁ k : KTrace P} (constructed : KTrace.new = .ok k₀)
    {calls : List (Ktrace.Call P)} {replies : List Reply}
    (ran : exec (KTrace.step debug) k₀ calls = .ok (replies, k₁)) {p : P} {attributes : Attributes} {span : Idx}
    {id : UInt64} {sent : Option SenderMessage}
    (opened : k₁.step debug (.newSpan p attributes) = .ok (⟨.created span id, sent⟩, k)) (t : T)
    (schedule : List (T × Action T)) {s : System (Metadata Str) P T span}
    (within : Schedule.Meets (System.step on debug) System.Within
      (System.created span k.spans.slab (k.references span.index) t) schedule)
    (reached : Schedule.run (System.step on debug) (System.created span k.spans.slab (k.references span.index) t) schedule =
      some s) :
    ClosedOnce attributes.metadata s := by
  obtain ⟨b, tracks, _⟩ := (KTrace.run_issued debug constructed calls).of_ok ran
  obtain ⟨one, b', tracks', issued, removed⟩ := (newSpan_created tracks p attributes).of_ok opened span id sent rfl
  have fresh : span ∉ b'.removed := by
    rw [removed]
    intro gone
    have keys := tracks'.faithful.keys
    rw [issued, List.map_cons, List.nodup_cons] at keys
    exact keys.1 (tracks.faithful.removed span gone)
  have preserved : ∀ (s : System (Metadata Str) P T span) move s', Coherent attributes.metadata s → s.Within move →
      s.step on debug move = some s' → Coherent attributes.metadata s' := by
    intro s move s' before within stepped
    obtain ⟨_, _, _, _, _, inv⟩ := before
    exact inv.step within stepped
  have holds : ∀ s : System (Metadata Str) P T span, Coherent attributes.metadata s → ClosedOnce attributes.metadata s := by
    intro s before
    obtain ⟨_, _, _, _, _, inv⟩ := before
    exact inv.closedOnce
  have start := created_coherent tracks' issued fresh one t
  exact Schedule.throughout_of_meets preserved holds start within schedule s (List.prefix_refl schedule) reached

/-- A second thread closes its handle but keeps its reference until the first one has removed the span. -/
def overlappingCloses : List (Bool × Action Bool) :=
  (false, .call .cloneSpan) :: List.replicate 4 (false, .advance false) ++ [(false, .pass true)] ++
  ((true, .call .tryClose) :: List.replicate 2 (true, .advance false)) ++
  ((false, .call .tryClose) :: List.replicate 6 (false, .advance false)) ++ List.replicate 9 (true, .advance false)

theorem span_closed_once_zombie :
    ∃ k₀ : KTrace Bool, KTrace.new = .ok k₀ ∧ ∃ (k : KTrace Bool) (span : Idx) (id : UInt64) (sent : Option SenderMessage),
      k₀.step true (.newSpan false KTrace.boot) = .ok (⟨.created span id, sent⟩, k) ∧
      ∃ s, Schedule.run (System.step (fun p => p) true)
          (System.created span k.spans.slab (k.references span.index) false) overlappingCloses = some s ∧
        s.trace.last = [false] ∧ s.trace.dropped = [KTrace.boot.metadata] ∧ ClosedOnce KTrace.boot.metadata s := by
  have both : ∃ k₀ : KTrace Bool, KTrace.new = .ok k₀ ∧
      ∃ (k : KTrace Bool) (span : Idx) (id : UInt64) (sent : Option SenderMessage),
      k₀.step true (.newSpan false KTrace.boot) = .ok (⟨.created span id, sent⟩, k) ∧
      ∃ s, Schedule.run (System.step (fun p => p) true)
          (System.created span k.spans.slab (k.references span.index) false) overlappingCloses = some s ∧
        s.trace.last = [false] ∧ s.trace.dropped = [KTrace.boot.metadata] ∧
        Schedule.Meets (System.step (fun p => p) true) System.Within
          (System.created span k.spans.slab (k.references span.index) false) overlappingCloses := by
    refine ⟨_, rfl, ?_⟩
    refine ⟨_, _, _, _, rfl, ?_⟩
    refine ⟨_, rfl, rfl, rfl, ?_⟩
    decide
  obtain ⟨k₀, constructed, k, span, id, sent, opened, s, reached, last, dropped, within⟩ := both
  have none : exec (KTrace.step true) k₀ [] = .ok ([], k₀) := rfl
  exact ⟨k₀, constructed, k, span, id, sent, opened, s, reached, last, dropped,
    span_closed_once true (fun p => p) constructed none opened false overlappingCloses within reached⟩

end Spans

section Limit

variable {V P : Type} [DecidableEq P] {span : Idx} (on : Nat → P) (debug : Bool) {s : System V P Nat span} {k t : Nat}

/-- The first threads hold a reference each, and the next one has a handle. -/
structure Crowded (k : Nat) (s : System V P Nat span) : Prop where
  inside : span.index < s.slab.size
  state : s.lifecycle.state = .allocated
  generation : s.lifecycle.generation = span.generation
  refcount : s.lifecycle.refcount = k
  handle : k ∈ s.handles
  idle : ∀ j, k ≤ j → s.pc j = .idle

theorem run_get (crowded : Crowded k s) (room : k + 1 < 2^16) :
    ∃ new, new.state = .allocated ∧ new.generation = span.generation ∧ new.refcount = k + 1 ∧
      Schedule.run (System.step on debug) s [(k, .call .cloneSpan), (k, .advance false)] =
        some ((s.setLifecycle new).setPc k (.counting .cloneSpan)) := by
  obtain ⟨new, proposed⟩ := Lifecycle.acquireReference_room crowded.generation crowded.state
    (show s.lifecycle.refcount + 1 < 2^16 by rw [crowded.refcount]; exact room)
  obtain ⟨generation, _, same, state, more⟩ := Lifecycle.acquireReference_propose proposed
  refine ⟨new, state, same.trans generation, by rw [more, crowded.refcount], ?_⟩
  have first : s.step on debug (k, .call .cloneSpan) =
      some (s.setPc k (.getting .cloneSpan ⟨s.lifecycle, new, (), proposed⟩)) := by
    simp only [System.step, crowded.idle k le_rfl, if_pos crowded.handle, if_pos crowded.inside,
      consider_propose proposed, System.afterGet]
  have second : (s.setPc k (.getting .cloneSpan ⟨s.lifecycle, new, (), proposed⟩)).step on debug (k, .advance false) =
      some ((s.setLifecycle new).setPc k (.counting .cloneSpan)) := by
    have unchanged : exchange (Lifecycle.acquireReference span.generation) ⟨s.lifecycle, new, (), proposed⟩ false
        s.lifecycle = .committed new () := exchange_unchanged _
    simp [System.step, System.advance, unchanged, System.afterGet]
  exact Schedule.run_cons.mpr ⟨_, first, Schedule.run_cons.mpr ⟨_, second, rfl⟩⟩

theorem run_drop (inside : span.index < s.slab.size) (pc : s.pc t = .dropping .cloned) (state : s.lifecycle.state = .allocated)
    (generation : s.lifecycle.generation = span.generation) (positive : 0 < s.lifecycle.refcount) :
    ∃ new, new.state = .allocated ∧ new.generation = span.generation ∧ new.refcount + 1 = s.lifecycle.refcount ∧
      Schedule.run (System.step on debug) s [(t, .advance false), (t, .advance false)] =
        some ((s.setLifecycle new).setPc t .idle) := by
  obtain ⟨new, last, proposed⟩ := Lifecycle.releaseReference_counted generation (by rw [state]; exact nofun) positive
  obtain ⟨_, _, same, state', fewer, finished⟩ := Lifecycle.releaseReference_propose proposed
  obtain rfl : last = false := by
    by_contra zombie
    cases state.symm.trans (finished.mp (by simpa using zombie)).1
  refine ⟨new, state'.trans state, same.trans generation, fewer.symm, ?_⟩
  have first : s.step on debug (t, .advance false) =
      some (s.setPc t (.releasing .cloned ⟨s.lifecycle, new, false, proposed⟩)) := by
    simp only [System.step, System.advance, pc, if_pos inside, consider_propose proposed, System.afterRelease]
  have second : (s.setPc t (.releasing .cloned ⟨s.lifecycle, new, false, proposed⟩)).step on debug (t, .advance false) =
      some ((s.setLifecycle new).setPc t .idle) := by
    have unchanged : exchange (Lifecycle.releaseReference span.generation) ⟨s.lifecycle, new, false, proposed⟩ false
        s.lifecycle = .committed new false := exchange_unchanged _
    simp [System.step, System.advance, unchanged, System.afterRelease, System.dropped]
  exact Schedule.run_cons.mpr ⟨_, first, Schedule.run_cons.mpr ⟨_, second, rfl⟩⟩

/-- The next thread makes a handle for its successor. -/
theorem Crowded.share (crowded : Crowded k s) (room : k + 1 < 2^16) :
    ∃ schedule s', Schedule.run (System.step on debug) s schedule = some s' ∧ Crowded k s' ∧ k + 1 ∈ s'.handles := by
  obtain ⟨new, state, generation, refcount, got⟩ := run_get on debug crowded room
  have counted : ((s.setLifecycle new).setPc k (.counting .cloneSpan)).step on debug (k, .advance false) =
      some (({ s with references := s.references + 1, handles := k ::ₘ s.handles }.setLifecycle new).setPc k
        (.dropping .cloned)) := by
    simp [System.step, System.advance, System.setPc, System.setLifecycle]
  obtain ⟨old, state', generation', refcount', dropped⟩ := run_drop on debug
    (s := ({ s with references := s.references + 1, handles := k ::ₘ s.handles }.setLifecycle new).setPc k
      (.dropping .cloned)) crowded.inside (pc_setPc ..) (by simpa using state) (by simpa using generation)
    (by simp [refcount])
  have passed : ((((({ s with references := s.references + 1, handles := k ::ₘ s.handles } : System V P Nat span).setLifecycle
      new).setPc k (.dropping .cloned)).setLifecycle old).setPc k .idle).step on debug (k, .pass (k + 1)) =
      some { ((s.setLifecycle new).setLifecycle old).setPc k .idle with
        references := s.references + 1, handles := (k + 1) ::ₘ s.handles } := by
    simp [System.step, System.setPc, System.setLifecycle]
  refine ⟨[(k, .call .cloneSpan), (k, .advance false)] ++ ((k, .advance false) ::
    ([(k, .advance false), (k, .advance false)] ++ [(k, .pass (k + 1))])),
    { ((s.setLifecycle new).setLifecycle old).setPc k .idle with
      references := s.references + 1, handles := (k + 1) ::ₘ s.handles }, ?_,
    ⟨crowded.inside, ?_, ?_, ?_, Multiset.mem_cons_of_mem crowded.handle, ?_⟩, Multiset.mem_cons_self (k + 1) s.handles⟩
  · rw [Schedule.run_append, got, Option.bind_some, Schedule.run_cons]
    refine ⟨_, counted, ?_⟩
    rw [Schedule.run_append, dropped, Option.bind_some, Schedule.run_cons]
    exact ⟨_, passed, rfl⟩
  · simpa [System.lifecycle, System.setPc, System.setLifecycle] using state'
  · simpa [System.lifecycle, System.setPc, System.setLifecycle] using generation'
  · rw [lifecycle_setPc, lifecycle_setLifecycle, refcount] at refcount'
    simpa [System.lifecycle, System.setPc, System.setLifecycle] using refcount'
  · intro j later
    by_cases same : j = k
    · simp [System.setPc, same]
    · simp only [System.setPc, System.setLifecycle, Function.update_of_ne same]
      exact crowded.idle j later

/-- The next thread takes a reference of its own. -/
theorem Crowded.next (crowded : Crowded k s) (room : k + 1 < 2^16) :
    ∃ schedule s', Schedule.run (System.step on debug) s schedule = some s' ∧ Crowded (k + 1) s' := by
  obtain ⟨schedule, mid, shared, crowded', handle⟩ := crowded.share on debug room
  obtain ⟨new, state, generation, refcount, got⟩ := run_get on debug crowded' room
  refine ⟨schedule ++ [(k, .call .cloneSpan), (k, .advance false)], (mid.setLifecycle new).setPc k (.counting .cloneSpan),
    ?_, crowded'.inside, ?_, ?_, ?_, handle, ?_⟩
  · rw [Schedule.run_append, shared, Option.bind_some, got]
  · simpa using state
  · simpa using generation
  · simpa using refcount
  · intro j later
    have differ : j ≠ k := by omega
    simp only [System.setPc, System.setLifecycle, Function.update_of_ne differ]
    exact crowded'.idle j (by omega)

theorem crowd (start : Crowded 0 s) (small : k < 2^16) :
    ∃ schedule s', Schedule.run (System.step on debug) s schedule = some s' ∧ Crowded k s' := by
  induction k with
  | zero => exact ⟨[], s, rfl, start⟩
  | succ k ih =>
    obtain ⟨schedule, mid, reached, crowded⟩ := ih (by omega)
    obtain ⟨more, s', next, crowded'⟩ := crowded.next on debug small
    exact ⟨schedule ++ more, s', by rw [Schedule.run_append, reached, Option.bind_some, next], crowded'⟩

theorem crowd_panics (start : Crowded 0 s) :
    ∃ schedule s' t, Schedule.run (System.step on debug) s schedule = some s' ∧ s'.pc t = .panicked .refcountOverflow := by
  obtain ⟨k, limit⟩ : ∃ k, k + 1 = 2^16 := ⟨2^16 - 1, rfl⟩
  obtain ⟨schedule, mid, reached, crowded⟩ := crowd on debug (k := k) start (by omega)
  have full := Lifecycle.acquireReference_full crowded.generation crowded.state (by rw [crowded.refcount, limit])
  have last : mid.step on debug (k, .call .cloneSpan) = some (mid.setPc k (.panicked .refcountOverflow)) := by
    simp only [System.step, crowded.idle k le_rfl, if_pos crowded.handle, if_pos crowded.inside, consider_panic full,
      System.afterGet]
  refine ⟨schedule ++ [(k, .call .cloneSpan)], mid.setPc k (.panicked .refcountOverflow), k, ?_, ?_⟩
  · rw [Schedule.run_append, reached, Option.bind_some, Schedule.run_cons]
    exact ⟨_, last, rfl⟩
  · rw [pc_setPc]

/-- With as many references as the lifecycle can count, the next `get` panics. -/
theorem get_panics :
    ∃ k₀ : KTrace Unit, KTrace.new = .ok k₀ ∧ ∃ (k : KTrace Unit) (span : Idx) (id : UInt64) (sent : Option SenderMessage),
      k₀.step true (.newSpan () KTrace.boot) = .ok (⟨.created span id, sent⟩, k) ∧
      ∃ (schedule : List (Nat × Action Nat)) (s : System (Metadata Str) Unit Nat span) (t : Nat),
        Schedule.run (System.step (fun _ => ()) true)
          (System.created span k.spans.slab (k.references span.index) 0) schedule = some s ∧
        s.pc t = .panicked .refcountOverflow := by
  refine ⟨_, rfl, ?_⟩
  refine ⟨_, _, _, _, rfl, ?_⟩
  exact crowd_panics (fun _ => ()) true ⟨by decide, rfl, rfl, rfl, by decide, fun _ _ => rfl⟩

end Limit

end Platypos.Ktrace.Handles
