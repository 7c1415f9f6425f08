import Platypos.Slab.SlotMachine

namespace PlatyposSlab.SlotMachine

variable {T : Type}

namespace Event

def generation : Event T → Nat
  | .acquired _ generation => generation
  | .released _ generation => generation
  | .releaseRefused _ generation _ => generation
  | .marked _ generation => generation
  | .granted _ generation _ => generation

def marks (generation : Nat) : Event T → Bool
  | .marked _ g => g == generation
  | _ => false

def grants (generation : Nat) : Event T → Bool
  | .granted _ g _ => g == generation
  | _ => false

end Event

/-- What the history of a slot can look like, given its present lifecycle. -/
structure History (l : Lifecycle) (log : List (Event T)) : Prop where
  past : ∀ event ∈ log, event.generation ≤ l.generation
  unmarked : l.state = .allocated → ∀ event ∈ log, event.marks l.generation = false
  ungranted : l.state = .allocated ∨ 0 < l.refcount → ∀ event ∈ log, event.grants l.generation = false
  marks : ∀ generation, log.countP (Event.marks generation) ≤ 1
  grants : ∀ generation, log.countP (Event.grants generation) ≤ 1
  closed : ∀ later earlier t generation live, log = later ++ .granted t generation live :: earlier →
    live = 0 ∧ ∀ u, .acquired u generation ∉ later
  accepted : ∀ t generation error, .releaseRefused t generation error ∉ log

namespace History

variable {l new : Lifecycle} {log : List (Event T)} {t : T} {generation : Nat}

theorem marks_past {event : Event T} (marked : event.marks generation = true) : event.generation = generation := by
  cases event <;> simp_all [Event.marks, Event.generation]

theorem grants_past {event : Event T} (granted : event.grants generation = true) :
    event.generation = generation := by
  cases event <;> simp_all [Event.grants, Event.generation]

theorem countP_eq_zero_of_unmarked {p : Event T → Bool} (none : ∀ event ∈ log, p event = false) :
    log.countP p = 0 := by
  rw [List.countP_eq_zero]
  intro event member
  simp [none event member]

theorem closed_cons (history : History l log) {event : Event T}
    (first : ∀ t generation live, event = .granted t generation live → live = 0)
    (fresh : ∀ u generation, event = .acquired u generation → ∀ e ∈ log, e.grants generation = false)
    (later earlier : List (Event T)) (t : T) (generation : Nat) (live : Multiset (T × Nat))
    (split : event :: log = later ++ .granted t generation live :: earlier) :
    live = 0 ∧ ∀ u, .acquired u generation ∉ later := by
  cases later with
  | nil =>
    rw [List.nil_append, List.cons.injEq] at split
    exact ⟨first t generation live split.1, by simp⟩
  | cons head later =>
    rw [List.cons_append, List.cons.injEq] at split
    obtain ⟨rfl, split⟩ := split
    have before := history.closed later earlier t generation live split
    refine ⟨before.1, ?_⟩
    intro u member
    rcases List.mem_cons.mp member with same | member
    · have ungranted := fresh u generation same.symm (.granted t generation live) (by simp [split])
      simp [Event.grants] at ungranted
    · exact before.2 u member

theorem quiet (history : History l log) (same : new.generation = l.generation)
    (state : new.state = .allocated → l.state = .allocated)
    (active : 0 < new.refcount → l.state = .allocated ∨ 0 < l.refcount) : History new log := by
  refine ⟨?_, ?_, ?_, history.marks, history.grants, history.closed, history.accepted⟩
  · rw [same]
    exact history.past
  · intro allocated
    rw [same]
    exact history.unmarked (state allocated)
  · intro open_
    rw [same]
    exact history.ungranted (open_.elim (fun allocated => .inl (state allocated)) active)

theorem nextGeneration (history : History l log) (next : new.generation = l.generation + 1) : History new log := by
  have fresh : ∀ event ∈ log, event.generation ≠ new.generation := by
    intro event member same
    have past := history.past event member
    omega
  refine ⟨?_, ?_, ?_, history.marks, history.grants, history.closed, history.accepted⟩
  · intro event member
    have past := history.past event member
    omega
  · intro _ event member
    by_contra marked
    exact fresh event member (marks_past (by simpa using marked))
  · intro _ event member
    by_contra granted
    exact fresh event member (grants_past (by simpa using granted))

theorem acquired (history : History l log) (state : l.state = .allocated) (current : l.generation = generation) :
    History l (.acquired t generation :: log) := by
  have open_ := history.ungranted (.inl state)
  refine ⟨?_, ?_, ?_, ?_, ?_, ?_, ?_⟩
  · simpa [Event.generation, current] using history.past
  · simpa [Event.marks, state] using history.unmarked state
  · simpa [Event.grants, state] using open_
  · simpa [List.countP_cons, Event.marks] using history.marks
  · simpa [List.countP_cons, Event.grants] using history.grants
  · apply history.closed_cons (by simp)
    intro u g same
    cases same
    rw [← current]
    exact open_
  · simpa using history.accepted

theorem released (history : History l log) (current : generation ≤ l.generation) :
    History l (.released t generation :: log) := by
  refine ⟨?_, ?_, ?_, ?_, ?_, ?_, ?_⟩
  · simpa [Event.generation, current] using history.past
  · simpa [Event.marks] using history.unmarked
  · simpa [Event.grants] using history.ungranted
  · simpa [List.countP_cons, Event.marks] using history.marks
  · simpa [List.countP_cons, Event.grants] using history.grants
  · exact history.closed_cons (by simp) (by simp)
  · simpa using history.accepted

theorem marked (history : History l log) (state : l.state = .allocated) (current : l.generation = generation)
    (same : new.generation = l.generation) (done : new.state ≠ .allocated) :
    History new (.marked t generation :: log) := by
  have unmarked := history.unmarked state
  have ungranted := history.ungranted (.inl state)
  refine ⟨?_, ?_, ?_, ?_, ?_, ?_, ?_⟩
  · simpa [Event.generation, same, current] using history.past
  · intro allocated
    exact absurd allocated done
  · simpa [Event.grants, same] using fun _ => ungranted
  · intro g
    rw [List.countP_cons]
    by_cases this : generation = g
    · have none := countP_eq_zero_of_unmarked unmarked
      rw [current, this] at none
      simp [none, Event.marks, this]
    · simpa [Event.marks, this] using history.marks g
  · simpa [List.countP_cons, Event.grants] using history.grants
  · exact history.closed_cons (by simp) (by simp)
  · simpa using history.accepted

theorem granted (history : History l log) (ungranted : ∀ event ∈ log, event.grants generation = false)
    (current : l.generation = generation) (state : l.state ≠ .allocated) (none : l.refcount = 0) :
    History l (.granted t generation 0 :: log) := by
  refine ⟨?_, ?_, ?_, ?_, ?_, ?_, ?_⟩
  · simpa [Event.generation, current] using history.past
  · intro allocated
    exact absurd allocated state
  · intro open_
    rcases open_ with allocated | counted
    · exact absurd allocated state
    · omega
  · simpa [List.countP_cons, Event.marks] using history.marks
  · intro g
    rw [List.countP_cons]
    by_cases this : generation = g
    · have zero := countP_eq_zero_of_unmarked ungranted
      rw [this] at zero
      simp [zero, Event.grants, this]
    · simpa [Event.grants, this] using history.grants g
  · apply history.closed_cons _ (by simp)
    intro u g live same
    cases same
    rfl
  · simpa using history.accepted

end History

end PlatyposSlab.SlotMachine
