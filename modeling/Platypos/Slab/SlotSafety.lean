import Platypos.Slab.SlotInvariant

namespace PlatyposSlab.SlotMachine

open CasLoop

variable {T : Type}

/-- What a thread that has the slot to itself is about to store, seen from the present lifecycle. -/
def Plan (l : Lifecycle) : Pc → Prop
  | .storing new => new.state = .unallocated ∧ new.generation = l.generation ∧ new.refcount = l.refcount
  | .dropping => l.state = .unallocated
  | .allocating new => new.generation = l.generation + 1 ∧ new.refcount = l.refcount ∧ new.state = .allocated
  | _ => True

/-- At most one thread has the slot to itself, and only while it is neither allocated nor referenced. -/
structure Ownership (l : Lifecycle) (pc : T → Pc) (vacant : Bool) : Prop where
  exclusive : ∀ t u, (pc t).Busy → (pc u).Busy → t = u
  busy : ∀ t, (pc t).Busy → vacant = false ∧ l.state ≠ .allocated ∧ l.refcount = 0
  free : vacant = true → l.state = .unallocated ∧ l.refcount = 0
  plan : ∀ t, Plan l (pc t)
  unreferenced : l.state = .unallocated → l.refcount = 0

theorem plan_of_not_busy {l : Lifecycle} {pc : Pc} (quiet : ¬ pc.Busy) : Plan l pc := by
  cases pc <;> simp_all [Plan, Pc.Busy]

namespace Ownership

variable {l new : Lifecycle} {pc : T → Pc} {vacant vacant' : Bool} {t : T} {pc' : Pc}

theorem alone_of_busy (owned : Ownership l pc vacant) (mine : (pc t).Busy) : ∀ u, u ≠ t → ¬ (pc u).Busy := by
  intro u other busy
  exact other (owned.exclusive u t busy mine)

theorem alone_of_vacant (owned : Ownership l pc vacant) (empty : vacant = true) : ∀ u, u ≠ t → ¬ (pc u).Busy := by
  intro u _ busy
  have taken := (owned.busy u busy).1
  rw [empty] at taken
  cases taken

theorem not_busy (owned : Ownership l pc vacant) (active : l.state = .allocated ∨ 0 < l.refcount) (u : T) :
    ¬ (pc u).Busy := by
  intro busy
  obtain ⟨_, state, none⟩ := owned.busy u busy
  rcases active with allocated | counted
  · exact state allocated
  · omega

theorem not_vacant (owned : Ownership l pc vacant) (active : l.state = .allocated ∨ 0 < l.refcount) :
    vacant = false := by
  cases taken : vacant with
  | false => rfl
  | true =>
    obtain ⟨state, none⟩ := owned.free taken
    rcases active with allocated | counted
    · rw [state] at allocated
      cases allocated
    · omega

variable [DecidableEq T]

theorem turn (owned : Ownership l pc vacant) (quiet : ¬ pc'.Busy) :
    Ownership l (Function.update pc t pc') vacant := by
  have busyBefore : ∀ u, (Function.update pc t pc' u).Busy → (pc u).Busy := by
    intro u busy
    by_cases same : u = t
    · subst same
      rw [Function.update_self] at busy
      exact absurd busy quiet
    · rwa [Function.update_of_ne same] at busy
  refine ⟨?_, ?_, owned.free, ?_, owned.unreferenced⟩
  · intro u v left right
    exact owned.exclusive u v (busyBefore u left) (busyBefore v right)
  · intro u busy
    exact owned.busy u (busyBefore u busy)
  · intro u
    by_cases same : u = t
    · subst same
      rw [Function.update_self]
      exact plan_of_not_busy quiet
    · rw [Function.update_of_ne same]
      exact owned.plan u

theorem of_alone (alone : ∀ u, u ≠ t → ¬ (pc u).Busy)
    (busy : pc'.Busy → vacant' = false ∧ new.state ≠ .allocated ∧ new.refcount = 0)
    (free : vacant' = true → new.state = .unallocated) (plan : Plan new pc')
    (unreferenced : new.state = .unallocated → new.refcount = 0) :
    Ownership new (Function.update pc t pc') vacant' := by
  have only : ∀ u, (Function.update pc t pc' u).Busy → u = t := by
    intro u busy
    by_contra other
    rw [Function.update_of_ne other] at busy
    exact alone u other busy
  refine ⟨?_, ?_, fun vacant => ⟨free vacant, unreferenced (free vacant)⟩, ?_, unreferenced⟩
  · intro u v left right
    rw [only u left, only v right]
  · intro u holding
    have same := only u holding
    subst same
    rw [Function.update_self] at holding
    exact busy holding
  · intro u
    by_cases same : u = t
    · subst same
      rwa [Function.update_self]
    · rw [Function.update_of_ne same]
      exact plan_of_not_busy (alone u same)

theorem of_alone_quiet (alone : ∀ u, u ≠ t → ¬ (pc u).Busy) (quiet : ¬ pc'.Busy)
    (free : vacant' = true → new.state = .unallocated)
    (unreferenced : new.state = .unallocated → new.refcount = 0) :
    Ownership new (Function.update pc t pc') vacant' :=
  of_alone alone (fun busy => absurd busy quiet) free (plan_of_not_busy quiet) unreferenced

end Ownership

structure Invariant (s : System T) : Prop where
  counted : s.lifecycle.Counted (s.refs.map Prod.snd)
  owned : Ownership s.lifecycle s.pc s.vacant
  history : History s.lifecycle s.log
  releasing : ∀ t generation proposal, s.pc t = .releasing generation proposal → (t, generation) ∈ s.refs
  panics : ∀ t reason, s.pc t = .panicked reason → reason = .refcountOverflow ∨ reason = .generationOverflow

theorem Invariant.holder_releases {s : System T} {t : T} (inv : Invariant s)
    {generation : Nat} (held : (t, generation) ∈ s.refs) :
    ∃ new last, s.lifecycle.releaseReference generation = .propose new last := by
  have member := Multiset.mem_map_of_mem Prod.snd held
  apply inv.counted.releasable member
  intro unallocated
  have none := inv.counted.eq_zero (inv.owned.unreferenced unallocated)
  rw [none] at member
  simp at member

section Steps

variable [DecidableEq T] {s s' : System T} {t : T}

theorem Invariant.pc_facts (inv : Invariant s) (t : T) (pc : Pc) (refs : Multiset (T × Nat))
    (kept : ∀ u generation, u ≠ t → (u, generation) ∈ s.refs → (u, generation) ∈ refs)
    (holds : ∀ generation proposal, pc = .releasing generation proposal → (t, generation) ∈ refs)
    (calm : ∀ reason, pc = .panicked reason → reason = .refcountOverflow ∨ reason = .generationOverflow) :
    (∀ u generation proposal, Function.update s.pc t pc u = .releasing generation proposal → (u, generation) ∈ refs) ∧
      ∀ u reason, Function.update s.pc t pc u = .panicked reason →
        reason = .refcountOverflow ∨ reason = .generationOverflow := by
  constructor
  · intro u generation proposal place
    by_cases same : u = t
    · subst same
      rw [Function.update_self] at place
      exact holds generation proposal place
    · rw [Function.update_of_ne same] at place
      exact kept u generation same (inv.releasing u generation proposal place)
  · intro u reason place
    by_cases same : u = t
    · subst same
      rw [Function.update_self] at place
      exact calm reason place
    · rw [Function.update_of_ne same] at place
      exact inv.panics u reason place

theorem Invariant.turned (inv : Invariant s) {pc : Pc} (quiet : ¬ pc.Busy)
    (holds : ∀ generation proposal, pc = .releasing generation proposal → (t, generation) ∈ s.refs)
    (calm : ∀ reason, pc = .panicked reason → reason = .refcountOverflow ∨ reason = .generationOverflow) :
    Invariant (s.setPc t pc) := by
  have places := inv.pc_facts t pc s.refs (fun _ _ _ => id) holds calm
  exact ⟨inv.counted, inv.owned.turn quiet, inv.history, places.1, places.2⟩

theorem Invariant.acquired (inv : Invariant s) {generation : Nat} {new : Lifecycle}
    (proposed : s.lifecycle.acquireReference generation = .propose new ()) :
    Invariant (s.afterAcquire t generation (.committed new ())) := by
  obtain ⟨current, state, same, state', more⟩ := Lifecycle.acquireReference_propose proposed
  have idle := inv.owned.not_busy (.inl state)
  have places := inv.pc_facts t .idle ((t, generation) ::ₘ s.refs) (fun _ _ _ => Multiset.mem_cons_of_mem)
    (by simp) (by simp)
  have counted : new.Counted (((t, generation) ::ₘ s.refs).map Prod.snd) := by
    rw [Multiset.map_cons]
    exact inv.counted.acquired proposed
  have owned : Ownership new (Function.update s.pc t .idle) s.vacant := by
    apply Ownership.of_alone_quiet (fun u _ => idle u) id
    · intro vacant
      simp [inv.owned.not_vacant (.inl state)] at vacant
    · intro unallocated
      rw [state'] at unallocated
      cases unallocated
  have history : History new (.acquired t generation :: s.log) := by
    apply History.acquired _ state' (same.trans current)
    exact inv.history.quiet same (fun _ => state) fun _ => .inl state
  exact ⟨counted, owned, history, places.1, places.2⟩

theorem Invariant.released (inv : Invariant s) {generation : Nat} {new : Lifecycle} {last : Bool}
    (held : (t, generation) ∈ s.refs)
    (proposed : s.lifecycle.releaseReference generation = .propose new last) :
    Invariant (s.afterRelease t generation (.committed new last)) := by
  obtain ⟨current, state, same, state', fewer, lastly⟩ := Lifecycle.releaseReference_propose proposed
  have active : s.lifecycle.state = .allocated ∨ 0 < s.lifecycle.refcount := .inr (by omega)
  have idle := inv.owned.not_busy active
  have counted : new.Counted ((s.refs.erase (t, generation)).map Prod.snd) := by
    rw [Multiset.map_erase_of_mem Prod.snd s.refs held]
    exact inv.counted.released (Multiset.mem_map_of_mem Prod.snd held) proposed
  have kept : ∀ u g, u ≠ t → (u, g) ∈ s.refs → (u, g) ∈ s.refs.erase (t, generation) := by
    intro u g other member
    rwa [Multiset.mem_erase_of_ne (by simp [other])]
  have history : History new (.released t generation :: s.log) := by
    apply History.released _ (by omega)
    exact inv.history.quiet same (fun allocated => by rwa [state'] at allocated) fun _ => active
  have unreferenced : new.state = .unallocated → new.refcount = 0 := by
    intro unallocated
    rw [state'] at unallocated
    exact absurd unallocated state
  have taken : ∀ {p : Prop}, s.vacant = true → p := by
    intro p vacant
    simp [inv.owned.not_vacant active] at vacant
  cases last with
  | false =>
    have places := inv.pc_facts t .idle _ kept (by simp) (by simp)
    exact ⟨counted, Ownership.of_alone_quiet (fun u _ => idle u) id taken unreferenced, history, places.1,
      places.2⟩
  | true =>
    obtain ⟨zombie, none⟩ := lastly.mp rfl
    have places := inv.pc_facts t .clearing _ kept (by simp) (by simp)
    have different : new.state ≠ .allocated := by simp [state', zombie]
    have gone : s.refs.erase (t, generation) = 0 := Multiset.map_eq_zero.mp (counted.eq_zero none)
    refine ⟨counted, ?_, ?_, places.1, places.2⟩
    · exact Ownership.of_alone (fun u _ => idle u) (fun _ => ⟨inv.owned.not_vacant active, different, none⟩) taken
        trivial unreferenced
    · simp only [System.afterRelease, System.record, System.setPc, if_true, gone]
      apply history.granted _ (same.trans current) different none
      have ungranted := inv.history.ungranted active
      rw [current] at ungranted
      simpa [Event.grants] using ungranted

theorem Invariant.marked (inv : Invariant s) {generation : Nat} {new : Lifecycle} {unallocated : Bool}
    (proposed : s.lifecycle.markUnallocated generation = .propose new unallocated) :
    Invariant (s.afterMark t generation (.committed new unallocated)) := by
  obtain ⟨current, state, same, refcount, state', zero⟩ := Lifecycle.markUnallocated_propose proposed
  have idle := inv.owned.not_busy (.inl state)
  have open_ := inv.owned.not_vacant (.inl state)
  have counted := inv.counted.of_same same refcount
  have ungranted := inv.history.ungranted (.inl state)
  have different : new.state ≠ .allocated := by
    rw [state']
    split <;> simp
  have history : History new (.marked t generation :: s.log) :=
    inv.history.marked state current same different
  have unreferenced : new.state = .unallocated → new.refcount = 0 := by
    intro cleared
    rw [state'] at cleared
    rw [refcount]
    apply zero.mp
    by_contra busy
    simp [busy] at cleared
  have taken : ∀ {p : Prop}, s.vacant = true → p := by
    intro p vacant
    simp [open_] at vacant
  cases unallocated with
  | false =>
    have places := inv.pc_facts t .idle s.refs (fun _ _ _ => id) (by simp) (by simp)
    exact ⟨counted, Ownership.of_alone_quiet (fun u _ => idle u) id taken unreferenced, history, places.1,
      places.2⟩
  | true =>
    have none : new.refcount = 0 := refcount.trans (zero.mp rfl)
    have places := inv.pc_facts t .clearing s.refs (fun _ _ _ => id) (by simp) (by simp)
    have gone : s.refs = 0 := Multiset.map_eq_zero.mp (counted.eq_zero none)
    refine ⟨counted, ?_, ?_, places.1, places.2⟩
    · exact Ownership.of_alone (fun u _ => idle u) (fun _ => ⟨open_, different, none⟩) taken trivial unreferenced
    · simp only [System.afterMark, System.record, System.setPc, if_true, gone]
      apply history.granted _ (same.trans current) different none
      rw [current] at ungranted
      simpa [Event.grants] using ungranted

theorem Invariant.alone (inv : Invariant s) {new : Lifecycle} {pc : Pc} {vacant : Bool}
    (counted : new.Counted (s.refs.map Prod.snd)) (owned : Ownership new (Function.update s.pc t pc) vacant)
    (history : History new s.log)
    (holds : ∀ generation proposal, pc ≠ .releasing generation proposal)
    (calm : ∀ reason, pc = .panicked reason → reason = .refcountOverflow ∨ reason = .generationOverflow) :
    Invariant ({ s with lifecycle := new, vacant := vacant }.setPc t pc) := by
  have places := inv.pc_facts t pc s.refs (fun _ _ _ => id)
    (fun generation proposal same => absurd same (holds generation proposal)) calm
  exact ⟨counted, owned, history, places.1, places.2⟩

theorem Invariant.transition {debug : Bool} (inv : Invariant s) (moved : Transition debug s t s') :
    Invariant s' := by
  cases moved with
  | turn pc quiet calm holds => exact inv.turned quiet holds fun reason same => absurd same (calm reason)
  | acquired generation new proposed => exact inv.acquired proposed
  | acquirePanic generation reason panicked =>
    apply inv.turned id (by simp)
    intro reason' same
    cases same
    exact .inl (Lifecycle.acquireReference_panic panicked).1
  | released generation new last held proposed => exact inv.released held proposed
  | releaseRefused generation error held refused =>
    obtain ⟨new, last, proposed⟩ := inv.holder_releases held
    rw [refused] at proposed
    cases proposed
  | releasePanic generation reason held panicked =>
    obtain ⟨new, last, proposed⟩ := inv.holder_releases held
    rw [panicked] at proposed
    cases proposed
  | marked generation new unallocated proposed => exact inv.marked proposed
  | clearLoaded new granted cleared =>
    have mine : (s.pc t).Busy := by simp [granted, Pc.Busy]
    have facts := inv.owned.busy t mine
    rw [Lifecycle.clear_eq facts.2.2] at cleared
    cases cleared
    have plan : Plan s.lifecycle (.storing { s.lifecycle with state := .unallocated }) := ⟨rfl, rfl, rfl⟩
    apply inv.alone inv.counted _ inv.history (by simp) (by simp)
    apply Ownership.of_alone (inv.owned.alone_of_busy mine) (fun _ => facts) _ plan inv.owned.unreferenced
    intro vacant
    exact (inv.owned.free vacant).1
  | clearPanic reason granted failed =>
    have facts := inv.owned.busy t (by simp [granted, Pc.Busy])
    rw [Lifecycle.clear_eq facts.2.2] at failed
    cases failed
  | stored new storing =>
    have mine : (s.pc t).Busy := by simp [storing, Pc.Busy]
    have facts := inv.owned.busy t mine
    have plan := inv.owned.plan t
    rw [storing] at plan
    obtain ⟨state, same, refcount⟩ := plan
    have none : new.refcount = 0 := refcount.trans facts.2.2
    have dropping : Plan new .dropping := state
    apply inv.alone (inv.counted.of_same same refcount) _ _ (by simp) (by simp)
    · apply Ownership.of_alone (inv.owned.alone_of_busy mine) _ (fun _ => state) dropping fun _ => none
      intro _
      exact ⟨facts.1, by simp [state], none⟩
    · apply inv.history.quiet same
      · intro allocated
        rw [state] at allocated
        cases allocated
      · intro counted
        omega
  | dropped dropping =>
    have mine : (s.pc t).Busy := by simp [dropping, Pc.Busy]
    have state : s.lifecycle.state = .unallocated := by
      have plan := inv.owned.plan t
      rwa [dropping] at plan
    apply inv.alone inv.counted _ inv.history (by simp) (by simp)
    exact Ownership.of_alone_quiet (inv.owned.alone_of_busy mine) id (fun _ => state) inv.owned.unreferenced
  | allocLoaded new vacant loaded =>
    have facts := inv.owned.free vacant
    have plan : Plan s.lifecycle (.allocating new) := Lifecycle.allocate_ok loaded
    apply inv.alone inv.counted _ inv.history (by simp) (by simp)
    apply Ownership.of_alone (inv.owned.alone_of_vacant vacant) _ (by simp) plan inv.owned.unreferenced
    intro _
    exact ⟨rfl, by simp [facts.1], facts.2⟩
  | allocPanic reason vacant failed =>
    have facts := inv.owned.free vacant
    apply inv.alone inv.counted _ inv.history (by simp) _
    · exact Ownership.of_alone_quiet (inv.owned.alone_of_vacant vacant) id (by simp) inv.owned.unreferenced
    · intro reason' same
      cases same
      exact .inr (Lifecycle.allocate_error facts.2 failed).1
  | allocated new allocating =>
    have mine : (s.pc t).Busy := by simp [allocating, Pc.Busy]
    have facts := inv.owned.busy t mine
    have plan := inv.owned.plan t
    rw [allocating] at plan
    obtain ⟨next, refcount, state⟩ := plan
    have none : new.refcount = 0 := refcount.trans facts.2.2
    have gone := inv.counted.eq_zero facts.2.2
    apply inv.alone _ _ (inv.history.nextGeneration next) (by simp) (by simp)
    · rw [gone]
      exact ⟨none, by simp⟩
    · apply Ownership.of_alone_quiet (inv.owned.alone_of_busy mine) id _ fun _ => none
      intro vacant
      simp [facts.1] at vacant

theorem Invariant.run {debug : Bool} (inv : Invariant s) (schedule : List (T × Action))
    (reached : s.run debug schedule = some s') : Invariant s' := by
  induction schedule generalizing s with
  | nil =>
    cases reached
    exact inv
  | cons move schedule ih =>
    obtain ⟨t, action⟩ := move
    simp only [System.run, Option.bind_eq_bind, Option.bind_eq_some_iff] at reached
    obtain ⟨next, stepped, reached⟩ := reached
    exact ih (inv.transition (step_transition debug (inv.releasing t) stepped)) reached

end Steps

theorem invariant_allocated (generation : Nat) (fits : generation < 2^46) :
    Invariant (System.allocated generation fits : System T) where
  counted := ⟨rfl, by simp [System.allocated]⟩
  owned := ⟨fun _ _ busy => absurd busy id, fun _ busy => absurd busy id, by simp [System.allocated],
    fun _ => trivial, fun _ => rfl⟩
  history := ⟨by simp [System.allocated], by simp [System.allocated], by simp [System.allocated],
    by simp [System.allocated], by simp [System.allocated], by simp [System.allocated], by simp [System.allocated]⟩
  releasing := by simp [System.allocated]
  panics := by simp [System.allocated]

variable [DecidableEq T]

/-- In every state that any interleaving reaches, references are counted exactly, each generation is removed
    and granted for clearing at most once and only after its last reference, and releasing never fails. -/
theorem slot_lifecycle {debug : Bool} {generation : Nat} {fits : generation < 2^46} {s : System T}
    (schedule : List (T × Action)) (reached : (System.allocated generation fits).run debug schedule = some s) :
    s.lifecycle.refcount = s.refs.countP (fun r => r.2 = s.lifecycle.generation) ∧
      (∀ g, s.log.countP (Event.marks g) ≤ 1) ∧
      (∀ g, s.log.countP (Event.grants g) ≤ 1) ∧
      (∀ later earlier t g live, s.log = later ++ .granted t g live :: earlier →
        live = 0 ∧ ∀ u, .acquired u g ∉ later) ∧
      (∀ t g error, .releaseRefused t g error ∉ s.log) ∧
      ∀ t reason, s.pc t = .panicked reason → reason = .refcountOverflow ∨ reason = .generationOverflow := by
  have inv := (invariant_allocated generation fits).run schedule reached
  have history := inv.history
  refine ⟨?_, history.marks, history.grants, history.closed, history.accepted, inv.panics⟩
  rw [inv.counted.count, Multiset.card_map, eq_comm, Multiset.countP_eq_card]
  intro r member
  exact inv.counted.current r.2 (Multiset.mem_map_of_mem Prod.snd member)

theorem slot_lifecycle_zombie :
    ∃ s : System Bool, (System.allocated 1 (by decide)).run true
        [(false, .acquireReference 1), (false, .advance false), (true, .markUnallocated 1), (true, .advance true),
          (true, .advance false), (false, .releaseReference 1), (false, .advance false)] = some s ∧
      s.lifecycle.refcount = 0 ∧ s.log.countP (Event.grants 1) = 1 ∧
      s.lifecycle.refcount = s.refs.countP (fun r => r.2 = s.lifecycle.generation) := by
  refine ⟨_, rfl, rfl, rfl, ?_⟩
  exact (@slot_lifecycle Bool _ true 1 (by decide) _ [(false, .acquireReference 1), (false, .advance false),
    (true, .markUnallocated 1), (true, .advance true), (true, .advance false), (false, .releaseReference 1),
    (false, .advance false)] rfl).1

end PlatyposSlab.SlotMachine
