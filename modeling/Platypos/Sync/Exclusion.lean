import Platypos.Sync.PreemptionSteps

namespace Platypos.Sync

open Schedule Exec Interleave

namespace Machine

variable {P M σ α β ε : Type} [DecidableEq P] [DecidableEq M]

section Ownership

variable {owner : M → Option (P × Nat)} {operation : σ → α → Except ε (β × σ)} {s s' : Machine P M σ α β ε}

omit [DecidableEq P] [DecidableEq M] in
/-- Every spinlock has at most one owner, which is the context that may use the value. -/
structure Owned (owner : M → Option (P × Nat)) (s : Machine P M σ α β ε) : Prop where
  word : ∀ mutex, s.locked mutex = (owner mutex).isSome
  holds : ∀ c mutex, mutex ∈ (s.context c).processor.locks ↔ owner mutex = some c
  nodup : ∀ c, (s.context c).processor.locks.Nodup
  uses : ∀ c mutex, (s.context c).use.mutex = some mutex → owner mutex = some c
  value : ∀ mutex, s.value mutex = none ↔ ∃ c, (s.context c).use.mutex = some mutex
  above : ∀ p level, s.depth p < level →
    (s.context (p, level)).processor.locks = [] ∧ (s.context (p, level)).use.mutex = none

omit [DecidableEq P] [DecidableEq M] in
theorem owned_start (enabled : P → Bool) (value : M → σ) :
    Owned (fun _ => none) (start enabled value : Machine P M σ α β ε) where
  word _ := rfl
  holds _ _ := by simp [start, Context.start, Processor.start, Processor.locks]
  nodup _ := List.nodup_nil
  uses _ _ used := by cases used
  value mutex := by simp [start, Context.start, Use.mutex]
  above _ _ _ := ⟨rfl, rfl⟩

omit [DecidableEq P] [DecidableEq M] in
theorem Owned.marked (owned : Owned owner s) {c : P × Nat} {mutex : M}
    (held : mutex ∈ (s.context c).processor.locks) : s.locked mutex = true := by
  rw [owned.word, (owned.holds c mutex).mp held]
  rfl

omit [DecidableEq P] [DecidableEq M] in
theorem Owned.at_depth (owned : Owned owner s) {context : P × Nat → Context M σ α ε} {depth : P → Nat}
    (same : ∀ c, (context c).processor.locks = (s.context c).processor.locks ∧
      (context c).use.mutex = (s.context c).use.mutex)
    (above : ∀ p level, depth p < level →
      (s.context (p, level)).processor.locks = [] ∧ (s.context (p, level)).use.mutex = none) :
    Owned owner { s with context := context, depth := depth } where
  word := owned.word
  holds c mutex := by
    simp only [(same c).1]
    exact owned.holds c mutex
  nodup c := by
    simp only [(same c).1]
    exact owned.nodup c
  uses c mutex used := by
    simp only [(same c).2] at used
    exact owned.uses c mutex used
  value mutex := by
    simp only [fun c => (same c).2]
    exact owned.value mutex
  above p level higher := by
    simp only [(same _).1, (same _).2]
    exact above p level higher

omit [DecidableEq M] in
theorem Owned.at_running (owned : Owned owner s) {p : P} {context : Context M σ α ε} {locked : M → Bool}
    {owner' : M → Option (P × Nat)} (words : ∀ mutex, locked mutex = (owner' mutex).isSome)
    (mine : ∀ mutex, mutex ∈ context.processor.locks ↔ owner' mutex = some (s.running p))
    (others : ∀ c, c ≠ s.running p → ∀ mutex, owner' mutex = some c ↔ owner mutex = some c)
    (nodup : context.processor.locks.Nodup) (same : context.use.mutex = (s.here p).use.mutex)
    (uses : ∀ mutex, context.use.mutex = some mutex → owner' mutex = some (s.running p)) :
    Owned owner' { s.setContext (s.running p) context with locked := locked } where
  word := words
  holds c mutex := by
    by_cases running : c = s.running p
    · subst running
      simp only [setContext, Function.update_self]
      exact mine mutex
    · simp only [setContext, Function.update_of_ne running, others c running mutex]
      exact owned.holds c mutex
  nodup c := by
    by_cases running : c = s.running p
    · subst running
      simpa only [setContext, Function.update_self] using nodup
    · simpa only [setContext, Function.update_of_ne running] using owned.nodup c
  uses c mutex used := by
    by_cases running : c = s.running p
    · subst running
      simp only [setContext, Function.update_self] at used
      exact uses mutex used
    · simp only [setContext, Function.update_of_ne running] at used
      exact (others c running mutex).mpr (owned.uses c mutex used)
  value mutex := by
    have used : ∀ c, ((s.setContext (s.running p) context).context c).use.mutex = (s.context c).use.mutex := by
      intro c
      by_cases running : c = s.running p
      · subst running
        simp only [setContext, Function.update_self]
        exact same
      · simp only [setContext, Function.update_of_ne running]
    simp only [used]
    exact owned.value mutex
  above q level higher := by
    have other : (q, level) ≠ s.running p := by
      rintro ⟨⟩
      exact Nat.lt_irrefl _ higher
    simp only [setContext, Function.update_of_ne other]
    exact owned.above q level higher

omit [DecidableEq M] in
theorem Owned.at_use (owned : Owned owner s) {p : P} {use : Use M σ α ε} {value : M → Option σ} {log : List (M × α × β)}
    (mine : ∀ mutex, use.mutex = some mutex → owner mutex = some (s.running p))
    (values : ∀ mutex, value mutex = none ↔
      use.mutex = some mutex ∨ ∃ c, c ≠ s.running p ∧ (s.context c).use.mutex = some mutex) :
    Owned owner ({ s with value := value, log := log }.setContext (s.running p) { s.here p with use := use }) where
  word := owned.word
  holds c mutex := by
    by_cases running : c = s.running p
    · subst running
      simp only [setContext, Function.update_self]
      exact owned.holds _ mutex
    · simp only [setContext, Function.update_of_ne running]
      exact owned.holds c mutex
  nodup c := by
    by_cases running : c = s.running p
    · subst running
      simp only [setContext, Function.update_self]
      exact owned.nodup _
    · simp only [setContext, Function.update_of_ne running]
      exact owned.nodup c
  uses c mutex used := by
    by_cases running : c = s.running p
    · subst running
      simp only [setContext, Function.update_self] at used
      exact mine mutex used
    · simp only [setContext, Function.update_of_ne running] at used
      exact owned.uses c mutex used
  value mutex := by
    refine (values mutex).trans ⟨?_, ?_⟩
    · rintro (here | ⟨c, other, used⟩)
      · exact ⟨s.running p, by simpa only [setContext, Function.update_self] using here⟩
      · exact ⟨c, by simpa only [setContext, Function.update_of_ne other] using used⟩
    · rintro ⟨c, used⟩
      by_cases running : c = s.running p
      · subst running
        exact .inl (by simpa only [setContext, Function.update_self] using used)
      · exact .inr ⟨c, running, by simpa only [setContext, Function.update_of_ne running] using used⟩
  above q level higher := by
    have other : (q, level) ≠ s.running p := by
      rintro ⟨⟩
      exact Nat.lt_irrefl _ higher
    simp only [setContext, Function.update_of_ne other]
    exact owned.above q level higher

omit [DecidableEq P] [DecidableEq M] in
/-- The value is away exactly if the running context has it or another one has. -/
theorem Owned.value_iff (owned : Owned owner s) (p : P) (mutex : M) :
    s.value mutex = none ↔ (s.here p).use.mutex = some mutex ∨
      ∃ c, c ≠ s.running p ∧ (s.context c).use.mutex = some mutex := by
  rw [owned.value]
  constructor
  · rintro ⟨c, used⟩
    by_cases running : c = s.running p
    · subst running
      exact .inl used
    · exact .inr ⟨c, running, used⟩
  · rintro (here | ⟨c, _, used⟩)
    · exact ⟨_, here⟩
    · exact ⟨c, used⟩

theorem Owned.step (owned : Owned owner s) {act : P × Act M α} (stepped : Steps operation s act s') :
    ∃ owner', Owned owner' s' := by
  cases stepped with
  | controls p act action processor runs stepped unused same =>
    refine ⟨owner, owned.at_running owned.word ?_ (fun _ _ _ => Iff.rfl) ?_ rfl ?_⟩
    · intro mutex
      rw [same.mem_iff]
      exact owned.holds _ mutex
    · exact same.nodup_iff.mpr (owned.nodup _)
    · intro mutex used
      exact owned.uses _ mutex used
  | acquires p taken mutex processor stepped unused free locks =>
    have fresh : owner mutex = none := by
      rw [owned.word] at free
      simpa using free
    refine ⟨Function.update owner mutex (some (s.running p)), owned.at_running ?_ ?_ ?_ ?_ rfl ?_⟩
    · intro mutex'
      by_cases same : mutex' = mutex
      · subst same
        simp
      · simp only [Function.update_of_ne same]
        exact owned.word mutex'
    · intro mutex'
      rw [locks, List.mem_cons]
      by_cases same : mutex' = mutex
      · subst same
        simp
      · simp only [same, false_or, Function.update_of_ne same]
        exact owned.holds _ mutex'
    · intro c other mutex'
      by_cases same : mutex' = mutex
      · subst same
        simp [fresh, Ne.symm other]
      · simp only [Function.update_of_ne same]
    · rw [locks, List.nodup_cons]
      refine ⟨?_, owned.nodup _⟩
      intro held
      cases ((owned.holds _ mutex).mp held).symm.trans fresh
    · intro mutex' used
      simp only [unused] at used
      cases used
  | releases p position mutex processor stepped unused locks =>
    have mine : owner mutex = some (s.running p) :=
      (owned.holds _ mutex).mp (locks.mem_iff.mp List.mem_cons_self)
    have nodup := locks.nodup_iff.mpr (owned.nodup _)
    rw [List.nodup_cons] at nodup
    refine ⟨Function.update owner mutex none, owned.at_running ?_ ?_ ?_ nodup.2 rfl ?_⟩
    · intro mutex'
      by_cases same : mutex' = mutex
      · subst same
        simp
      · simp only [Function.update_of_ne same]
        exact owned.word mutex'
    · intro mutex'
      by_cases same : mutex' = mutex
      · subst same
        simp [nodup.1]
      · simp only [Function.update_of_ne same]
        have held := owned.holds (s.running p) mutex'
        rw [← held, ← Machine.here, ← locks.mem_iff, List.mem_cons]
        simp [same]
    · intro c other mutex'
      by_cases same : mutex' = mutex
      · subst same
        simp [mine, Ne.symm other]
      · simp only [Function.update_of_ne same]
    · intro mutex' used
      simp only [unused] at used
      cases used
  | begins p mutex op value unused held there =>
    refine ⟨owner, owned.at_use ?_ ?_⟩
    · rintro _ ⟨⟩
      exact (owned.holds _ mutex).mp held
    · intro mutex'
      by_cases same : mutex' = mutex
      · subst same
        simp [Use.mutex]
      · have away := owned.value_iff p mutex'
        simp only [unused] at away
        simpa [Use.mutex, Function.update_of_ne same, Ne.symm same] using away
  | finishes p mutex op value value' answer used done =>
    have mine := owned.uses (s.running p) mutex (by rw [← here, used]; rfl)
    refine ⟨owner, owned.at_use nofun ?_⟩
    intro mutex'
    by_cases same : mutex' = mutex
    · subst same
      simp only [Function.update_self, reduceCtorEq, Use.mutex, false_or, false_iff]
      rintro ⟨c, other, used'⟩
      exact other (Option.some.inj ((owned.uses c mutex' used').symm.trans mine))
    · have away := owned.value_iff p mutex'
      simp only [used] at away
      simpa [Use.mutex, Function.update_of_ne same, Ne.symm same] using away
  | panics p mutex op value reason used failed =>
    refine ⟨owner, owned.at_use ?_ ?_⟩
    · rintro _ ⟨⟩
      exact owned.uses (s.running p) mutex (by rw [← here, used]; rfl)
    · intro mutex'
      have away := owned.value_iff p mutex'
      rw [used] at away
      exact away
  | interrupts p enabled =>
    have gone := owned.above p (s.depth p + 1) (Nat.lt_succ_self _)
    refine ⟨owner, owned.at_depth ?_ ?_⟩
    · intro c
      by_cases handler : c = (p, s.depth p + 1)
      · subst handler
        simp only [Function.update_self, gone]
        exact ⟨rfl, rfl⟩
      · simp only [Function.update_of_ne handler]
        exact ⟨trivial, trivial⟩
    · intro q level higher
      apply owned.above q level
      by_cases same : q = p
      · subst same
        simp only [Function.update_self] at higher
        omega
      · simpa only [Function.update_of_ne same] using higher
  | returns p level above unused released =>
    refine ⟨owner, owned.at_depth (fun _ => ⟨rfl, rfl⟩) ?_⟩
    intro q level' higher
    by_cases same : q = p
    · subst same
      rw [Function.update_self] at higher
      by_cases top : level' = s.depth q
      · subst top
        change (s.here q).processor.locks = [] ∧ (s.here q).use.mutex = none
        rw [unused, Processor.locks, released]
        exact ⟨rfl, rfl⟩
      · exact owned.above q level' (by omega)
    · rw [Function.update_of_ne same] at higher
      exact owned.above q level' higher
  | halts p mutex reason used =>
    refine ⟨owner, owned.at_running owned.word (owned.holds _) (fun _ _ _ => Iff.rfl) (owned.nodup _) rfl ?_⟩
    intro mutex used
    exact owned.uses _ mutex used

/-- The operations on each value have been carried out one after another, and it is what they have made of it. -/
def Serial (operation : σ → α → Except ε (β × σ)) (initial : M → σ) (s : Machine P M σ α β ε) : Prop :=
  ∀ mutex, ∃ value, exec operation (initial mutex) ((own mutex s.log).map Prod.fst) =
      .ok ((own mutex s.log).map Prod.snd, value) ∧
    (∀ current, s.value mutex = some current → current = value) ∧
    ∀ c op current, (s.context c).use = .operating mutex op current → current = value

omit [DecidableEq P] in
/-- A step that neither begins an operation nor finishes one. -/
theorem Serial.keep {initial : M → σ} (serial : Serial operation initial s) (log : s'.log = s.log)
    (values : s'.value = s.value) (uses : ∀ c, (s'.context c).use = (s.context c).use ∨
      ∀ mutex op current, (s'.context c).use ≠ .operating mutex op current) : Serial operation initial s' := by
  intro mutex
  obtain ⟨value, history, idle, busy⟩ := serial mutex
  rw [log, values]
  refine ⟨value, history, idle, ?_⟩
  intro c op current used
  rcases uses c with same | none
  · exact busy c op current (same ▸ used)
  · exact absurd used (none mutex op current)

omit [DecidableEq M] in
theorem use_setContext {p : P} {context : Context M σ α ε} (here : context.use = (s.here p).use ∨
    ∀ mutex op current, context.use ≠ .operating mutex op current) (c : P × Nat) :
    ((s.setContext (s.running p) context).context c).use = (s.context c).use ∨
      ∀ mutex op current, ((s.setContext (s.running p) context).context c).use ≠ .operating mutex op current := by
  by_cases running : c = s.running p
  · subst running
    simp only [setContext, Function.update_self]
    exact here
  · simp only [setContext, Function.update_of_ne running, true_or]

theorem Serial.step {initial : M → σ} (serial : Serial operation initial s) (owned : Owned owner s) {act : P × Act M α}
    (stepped : Steps operation s act s') : Serial operation initial s' := by
  cases stepped with
  | controls p act action processor runs stepped unused same => exact serial.keep rfl rfl (use_setContext (.inl rfl))
  | acquires p taken mutex' processor stepped unused free locks => exact serial.keep rfl rfl (use_setContext (.inl rfl))
  | releases p position mutex' processor stepped unused locks => exact serial.keep rfl rfl (use_setContext (.inl rfl))
  | panics p mutex' op value' reason used failed => exact serial.keep rfl rfl (use_setContext (.inr nofun))
  | halts p mutex' reason used => exact serial.keep rfl rfl (use_setContext (.inl rfl))
  | returns p level above unused released => exact serial
  | interrupts p enabled =>
    refine serial.keep rfl rfl ?_
    intro c
    by_cases handler : c = (p, s.depth p + 1)
    · subst handler
      simp only [setContext, Function.update_self]
      exact .inr nofun
    · simp only [setContext, Function.update_of_ne handler, true_or]
  | begins p mutex' op value' unused held there =>
    intro mutex
    obtain ⟨value, history, idle, busy⟩ := serial mutex
    refine ⟨value, history, ?_, ?_⟩
    · intro current same
      by_cases mine : mutex = mutex'
      · subst mine
        simp [setContext] at same
      · simp only [setContext, Function.update_of_ne mine] at same
        exact idle current same
    · intro c op' current used
      by_cases running : c = s.running p
      · subst running
        simp only [setContext, Function.update_self, Use.operating.injEq] at used
        obtain ⟨rfl, rfl, rfl⟩ := used
        exact idle _ there
      · simp only [setContext, Function.update_of_ne running] at used
        exact busy c op' current used
  | finishes p mutex' op value' value'' answer used done =>
    intro mutex
    obtain ⟨value, history, idle, busy⟩ := serial mutex
    have others : ∀ c op' current, (({ s with
        value := Function.update s.value mutex' (some value''), log := s.log ++ [(mutex', op, answer)] }.setContext
        (s.running p) { s.here p with use := .nothing }).context c).use = .operating mutex op' current →
        c ≠ s.running p ∧ (s.context c).use = .operating mutex op' current := by
      intro c op' current used'
      by_cases running : c = s.running p
      · subst running
        simp only [setContext, Function.update_self] at used'
        cases used'
      · simp only [setContext, Function.update_of_ne running] at used'
        exact ⟨running, used'⟩
    by_cases mine : mutex = mutex'
    · subst mine
      obtain rfl := busy (s.running p) op value' used
      refine ⟨value'', ?_, ?_, ?_⟩
      · simp only [setContext, own_append, own_cons_self, List.map_append]
        apply exec_append_ok history
        rw [List.map_cons, exec_cons_of_ok done]
        rfl
      · intro current same
        simpa [setContext, eq_comm] using same
      · intro c op' current used'
        obtain ⟨other, used'⟩ := others c op' current used'
        have owner₁ := owned.uses c mutex (by rw [used']; rfl)
        have owner₂ := owned.uses (s.running p) mutex (by rw [← here, used]; rfl)
        exact absurd (Option.some.inj (owner₁.symm.trans owner₂)) other
    · refine ⟨value, ?_, ?_, ?_⟩
      · simp only [setContext, own_append, own_cons_of_ne (Ne.symm mine)]
        simpa [own] using history
      · intro current same
        simp only [setContext, Function.update_of_ne mine] at same
        exact idle current same
      · intro c op' current used'
        exact busy c op' current (others c op' current used').2

end Ownership

/-- What holds along every run. -/
theorem run_owned {operation : σ → α → Except ε (β × σ)} {enabled : P → Bool} {initial : M → σ}
    {schedule : List (P × Act M α)} {s : Machine P M σ α β ε}
    (reached : run (step operation) (start enabled initial) schedule = some s) :
    (∃ owner, Owned owner s) ∧ Serial operation initial s := by
  have preserved : ∀ (s : Machine P M σ α β ε) act s', ((∃ owner, Owned owner s) ∧ Serial operation initial s) →
      s.step operation act = some s' → (∃ owner, Owned owner s') ∧ Serial operation initial s' := by
    rintro s ⟨p, act⟩ s' ⟨⟨owner, owned⟩, serial⟩ stepped
    have moved := steps_of_step (fun mutex held => owned.marked held) stepped
    exact ⟨owned.step moved, serial.step owned moved⟩
  apply run_ensures preserved _ reached
  refine ⟨⟨_, owned_start enabled initial⟩, ?_⟩
  intro mutex
  exact ⟨initial mutex, rfl, fun current same => (Option.some.inj same).symm, nofun⟩

/-- A spinlock is held by one context at a time, which finds the value there whenever it is not using it already; and
    the operations of all processors and handlers give the answers of a run of one after the other. -/
theorem operations_serialised (operation : σ → α → Except ε (β × σ)) (enabled : P → Bool) (initial : M → σ)
    (schedule : List (P × Act M α)) {s : Machine P M σ α β ε}
    (reached : run (step operation) (start enabled initial) schedule = some s) :
    (∀ mutex c c', mutex ∈ (s.context c).processor.locks → mutex ∈ (s.context c').processor.locks → c = c') ∧
      (∀ p, (s.here p).use = .nothing → ∀ mutex ∈ (s.here p).processor.locks, (s.value mutex).isSome) ∧
      ∀ mutex, ∃ value, exec operation (initial mutex) ((own mutex s.log).map Prod.fst) =
          .ok ((own mutex s.log).map Prod.snd, value) ∧ ∀ current, s.value mutex = some current → current = value := by
  obtain ⟨⟨owner, owned⟩, serial⟩ := run_owned reached
  refine ⟨?_, ?_, ?_⟩
  · intro mutex c c' held held'
    exact Option.some.inj (((owned.holds c mutex).mp held).symm.trans ((owned.holds c' mutex).mp held'))
  · intro p unused mutex held
    rw [Option.isSome_iff_ne_none]
    intro away
    obtain ⟨c, used⟩ := (owned.value mutex).mp away
    have same : c = s.running p :=
      Option.some.inj ((owned.uses c mutex used).symm.trans ((owned.holds _ mutex).mp held))
    subst same
    rw [← here, unused] at used
    cases used
  · intro mutex
    obtain ⟨value, history, idle, _⟩ := serial mutex
    exact ⟨value, history, idle⟩

/-- A counter, of which each operation takes some and is told what there was. -/
def draw (value op : Nat) : Except Unit (Nat × Nat) := if op ≤ value then .ok (value, value - op) else .error ()

/-- Two processors draw from one counter. The second one is in a handler, and spins while the first is at it. -/
def contended : List (Bool × Act Unit Nat) :=
  [(false, .call (.lock ())), (false, .advance), (false, .advance), (true, .interrupt), (true, .call (.lock ())),
    (true, .advance), (true, .advance), (false, .operate () 3), (false, .finish), (true, .advance), (false, .drop 0),
    (true, .advance), (true, .operate () 4), (false, .advance), (true, .finish)]

theorem operations_serialised_contended :
    ∃ s : Machine Bool Unit Nat Nat Nat Unit, run (step draw) (start (fun _ => true) fun _ => 10) contended = some s ∧
      s.log = [((), 3, 10), ((), 4, 7)] ∧ s.value () = some 3 := by
  have ran : (run (step draw) (start (fun _ => true) fun _ => 10 : Machine Bool Unit Nat Nat Nat Unit) contended).map
      (fun s => (s.log, (s.value ()).isSome)) = some ([((), 3, 10), ((), 4, 7)], true) := by decide +kernel
  obtain ⟨s, reached, seen⟩ := Option.map_eq_some_iff.mp ran
  obtain ⟨log, there⟩ := Prod.mk.inj seen
  obtain ⟨value, history, current⟩ := (operations_serialised draw _ _ contended reached).2.2 ()
  obtain ⟨found, same⟩ := Option.isSome_iff_exists.mp there
  rw [log] at history
  cases history
  exact ⟨s, reached, log, same.trans (congrArg some (current found same))⟩

end Machine

end Platypos.Sync
