import Platypos.Slab.GlobalFreeList

namespace PlatyposSlab.GlobalFreeList

open Chain TaggedStack Schedule

variable {T : Type}

/-- What holds of one thread. -/
structure Placed (size : Nat) (next : Nat → Nat) (place : Nat → Place T) (t : T) (pc : Pc) : Prop where
  hands : ∀ i, pc.pushing = some i → i < size ∧ place i = .held t
  written : ∀ i tag old, pc = .pushSwap i tag old → next i = old
  seen : ∀ x, pc.phase.seen = some x → x ≠ EMPTY ∧ Entry.index x < size
  calm : ∀ reason, pc ≠ .panicked reason

/-- The last event about an index on the list is its push. -/
def Refilled (log : List (Event T)) (i : Nat) : Prop :=
  ∃ later earlier t, log = later ++ .pushed t i :: earlier ∧ ∀ u, .popped u i ∉ later

/-- Between two pops of an index there is a push of it. -/
def Alternates (log : List (Event T)) : Prop :=
  ∀ later between earlier t u i, log = later ++ .popped t i :: (between ++ .popped u i :: earlier) →
    ∃ v, .pushed v i ∈ between

/-- An index is on the list, in flight in the push of one thread, or owned by one. -/
structure Invariant (s : System T) (place : Nat → Place T) (cells : List Nat) : Prop where
  fits : s.size < 2^18
  shelves : Shelves s.size s.next s.head (fun _ : T => none) place cells (fun _ => [])
  placed : ∀ t, Placed s.size s.next place t (s.pc t)
  busy : ∀ i < s.size, ∀ t, place i = .held t → (s.pc t).pushing = some i
  owned : ∀ i, (s.owner i).isSome ↔ i < s.size ∧ place i = .inUse
  tagged : Tagged 0 Entry.tag Entry.index s.tag s.next (words s.next s.head cells) (Pc.phase ∘ s.pc)
  refilled : ∀ i ∈ cells, Refilled s.log i
  alternates : Alternates s.log

section Log

variable {log : List (Event T)} {i : Nat}

theorem Refilled.after (refilled : Refilled log i) {event : Event T} (other : ∀ t, event ≠ .popped t i) :
    Refilled (event :: log) i := by
  obtain ⟨later, earlier, t, rfl, quiet⟩ := refilled
  refine ⟨event :: later, earlier, t, rfl, ?_⟩
  intro u member
  rcases List.mem_cons.mp member with same | member
  · exact other u same.symm
  · exact quiet u member

theorem Alternates.pushed (alternates : Alternates log) (t : T) : Alternates (.pushed t i :: log) := by
  intro later between earlier u v j split
  cases later with
  | nil => simp at split
  | cons event later =>
    rw [List.cons_append, List.cons.injEq] at split
    exact alternates later between earlier u v j split.2

theorem Alternates.popped (alternates : Alternates log) (refilled : Refilled log i) (t : T) :
    Alternates (.popped t i :: log) := by
  intro later between earlier u v j split
  cases later with
  | cons event later =>
    rw [List.cons_append, List.cons.injEq] at split
    exact alternates later between earlier u v j split.2
  | nil =>
    simp only [List.nil_append, List.cons.injEq, Event.popped.injEq] at split
    obtain ⟨⟨rfl, rfl⟩, split⟩ := split
    obtain ⟨later, earlier', w, pushed, quiet⟩ := refilled
    rw [pushed] at split
    -- the push comes after every earlier pop of the index
    rcases List.append_eq_append_iff.mp split with ⟨rest, rfl, tails⟩ | ⟨rest, rfl, tails⟩
    · cases rest with
      | nil => simp at tails
      | cons event rest =>
        rw [List.cons_append, List.cons.injEq] at tails
        exact ⟨w, by simp [← tails.1]⟩
    · cases rest with
      | nil => simp at tails
      | cons event rest =>
        rw [List.cons_append, List.cons.injEq] at tails
        exact absurd (by simp [← tails.1]) (quiet v)

end Log

theorem Pc.entry_eq {pc : Pc} {word : Nat} (entry : pc.entry = some word) :
    ∃ i tag, pc.pushing = some i ∧ Entry.pack i tag = word := by
  cases pc <;> cases entry <;> exact ⟨_, _, rfl, rfl⟩

theorem Pc.phase_ne_pending {pc : Pc} (free : pc.pushing = none) (x : Nat) : pc.phase ≠ .pending x := by
  cases pc <;> simp_all [Pc.pushing, Pc.phase]

section Placed

variable {size : Nat} {next : Nat → Nat} {place : Nat → Place T} {t : T} {pc : Pc} {i : Nat}

theorem Placed.at (free : pc.pushing = none) (seen : ∀ x, pc.phase.seen = some x → x ≠ EMPTY ∧ Entry.index x < size)
    (calm : ∀ reason, pc ≠ .panicked reason) : Placed size next place t pc := by
  refine ⟨by simp [free], ?_, seen, calm⟩
  intro i tag old swapping
  rw [swapping] at free
  cases free

theorem Placed.away (idle : pc = .idle ∨ pc = .popLoad) : Placed size next place t pc := by
  rcases idle with rfl | rfl <;> exact .at rfl nofun nofun

theorem Placed.pusher (pushing : pc.pushing = some i) (inside : i < size) (here : place i = .held t)
    (written : ∀ i tag old, pc = .pushSwap i tag old → next i = old) : Placed size next place t pc := by
  refine ⟨?_, written, ?_, ?_⟩
  · intro j again
    cases pushing.symm.trans again
    exact ⟨inside, here⟩
  · intro x seen
    cases pc <;> simp_all [Pc.pushing, Pc.phase, Phase.seen]
  · intro reason panicked
    rw [panicked] at pushing
    cases pushing

/-- Nothing changes for a thread when the slot in its hands stays there and is not written. -/
theorem Placed.kept {next' : Nat → Nat} {place' : Nat → Place T} (placed : Placed size next place t pc)
    (hands : ∀ i, pc.pushing = some i → place' i = place i ∧ next' i = next i) : Placed size next' place' t pc := by
  refine ⟨?_, ?_, placed.seen, placed.calm⟩
  · intro i pushing
    rw [(hands i pushing).1]
    exact placed.hands i pushing
  · intro i tag old swapping
    rw [(hands i (by rw [swapping]; rfl)).2]
    exact placed.written i tag old swapping

end Placed

section Reading

variable {s : System T} {place : Nat → Place T} {cells : List Nat} {t : T} {i : Nat}
  (inv : Invariant s place cells)

include inv

theorem Invariant.index_mem {x : Nat} (member : x ∈ words s.next s.head cells) : Entry.index x ∈ cells := by
  obtain ⟨i, inside, points⟩ := inv.shelves.globalLinked.decode_of_mem_words member
  unfold globalCell at points
  split at points
  · cases points
  · rwa [Option.some.inj points]

/-- The list, when it is not empty, starts with the slot the head names. -/
theorem Invariant.top (more : s.head ≠ EMPTY) : ∃ rest, cells = Entry.index s.head :: rest := by
  have linked := inv.shelves.globalLinked
  cases cells with
  | nil => simp [Linked, globalCell, more] at linked
  | cons i rest =>
    simp only [Linked, globalCell, if_neg more, Option.some.injEq] at linked
    exact ⟨rest, by rw [linked.1]⟩

theorem Invariant.head_mem (more : s.head ≠ EMPTY) : s.head ∈ words s.next s.head cells := by
  obtain ⟨rest, rfl⟩ := inv.top more
  exact List.mem_cons_self

theorem Invariant.unlisted (pushing : (s.pc t).pushing = some i) : ¬ (place i).Listed := by
  rw [((inv.placed t).hands i pushing).2]
  exact id

theorem Invariant.alone {u : T} (pushing : (s.pc t).pushing = some i) (again : (s.pc u).pushing = some i) : u = t := by
  have both := ((inv.placed t).hands i pushing).2.symm.trans ((inv.placed u).hands i again).2
  simp only [Place.held.injEq] at both
  exact both.symm

/-- No index is lost and none is in two places. -/
theorem Invariant.accounted (inside : i < s.size) :
    (i ∈ cells ∧ s.owner i = none ∧ ∀ t, (s.pc t).pushing ≠ some i) ∨
      (i ∉ cells ∧ (∃ t, s.owner i = some t) ∧ ∀ t, (s.pc t).pushing ≠ some i) ∨
      (i ∉ cells ∧ s.owner i = none ∧ ∃ t, (s.pc t).pushing = some i ∧ ∀ u, (s.pc u).pushing = some i → u = t) := by
  have listed := inv.shelves.mem_global i
  have owned := inv.owned i
  cases here : place i with
  | global =>
    refine .inl ⟨listed.mpr ⟨inside, here⟩, by simpa [here] using owned, ?_⟩
    intro t pushing
    exact inv.unlisted pushing (here ▸ trivial)
  | «local» p => exact absurd ((inv.shelves.mem_local p i).mpr ⟨inside, here⟩) (by simp)
  | held t =>
    have pushing := inv.busy i inside t here
    refine .inr (.inr ⟨by simp [listed, here], by simpa [here] using owned, t, pushing, ?_⟩)
    intro u again
    exact inv.alone pushing again
  | inUse =>
    refine .inr (.inl ⟨by simp [listed, here], Option.isSome_iff_exists.mp (owned.mpr ⟨inside, here⟩), ?_⟩)
    intro t pushing
    exact absurd (here.symm.trans ((inv.placed t).hands i pushing).2) nofun

end Reading

section Steps

variable [DecidableEq T] {s : System T} {place : Nat → Place T} {cells : List Nat} {t : T} {i : Nat}
  (inv : Invariant s place cells)

include inv

theorem Invariant.placed_update {b : Pc} {next : Nat → Nat} {place' : Nat → Place T}
    (mine : Placed s.size next place' t b)
    (others : ∀ u j, u ≠ t → (s.pc u).pushing = some j → place' j = place j ∧ next j = s.next j) :
    ∀ u, Placed s.size next place' u (Function.update s.pc t b u) := by
  refine (Function.forall_update_iff s.pc (Placed s.size next place')).mpr ⟨mine, ?_⟩
  intro u differ
  exact (inv.placed u).kept fun j pushing => others u j differ pushing

theorem Invariant.busy_update {b : Pc} {place' : Nat → Place T}
    (mine : ∀ j < s.size, place' j = .held t → b.pushing = some j)
    (others : ∀ j < s.size, ∀ u, u ≠ t → place' j = .held u → place j = .held u) :
    ∀ j < s.size, ∀ u, place' j = .held u → (Function.update s.pc t b u).pushing = some j := by
  intro j inside u held
  by_cases same : u = t
  · subst same
    rw [Function.update_self]
    exact mine j inside held
  · rw [Function.update_of_ne same]
    exact inv.busy j inside u (others j inside u same held)

/-- A thread that goes away leaves nothing in its hands, and the slot it had has a place elsewhere. -/
theorem Invariant.busy_leave {here : Place T} (unheld : ∀ u, here ≠ .held u)
    (last : ∀ j, (s.pc t).pushing = some j → j = i) :
    ∀ j < s.size, ∀ u, Function.update place i here j = .held u →
      (Function.update s.pc t .idle u).pushing = some j := by
  have elsewhere : ∀ j u, Function.update place i here j = .held u → j ≠ i ∧ place j = .held u := by
    intro j u held
    by_cases same : j = i
    · subst same
      rw [Function.update_self] at held
      exact absurd held (unheld u)
    · rw [Function.update_of_ne same] at held
      exact ⟨same, held⟩
  apply inv.busy_update
  · intro j inside held
    obtain ⟨differ, held⟩ := elsewhere j t held
    exact absurd (last j (inv.busy j inside t held)) differ
  · intro j inside u _ held
    exact (elsewhere j u held).2

/-- A step that only moves one thread, and neither begins nor ends a push. -/
theorem Invariant.turn {b : Pc} (same : b.pushing = (s.pc t).pushing) (placed : Placed s.size s.next place t b)
    (tagged : Tagged 0 Entry.tag Entry.index s.tag s.next (words s.next s.head cells)
      (Function.update (Pc.phase ∘ s.pc) t b.phase)) : Invariant (s.setPc t b) place cells := by
  refine { inv with placed := ?_, busy := ?_, tagged := ?_ }
  · exact inv.placed_update placed fun _ _ _ _ => ⟨rfl, rfl⟩
  · refine inv.busy_update ?_ fun _ _ _ _ => id
    intro j inside held
    rw [same]
    exact inv.busy j inside t held
  · rw [System.setPc, Function.comp_update]
    exact tagged

theorem Invariant.loadHead (free : (s.pc t).pushing = none) : Invariant (s.loadHead t) place cells := by
  unfold System.loadHead
  split
  · exact inv.turn free.symm (.away (.inl rfl)) inv.tagged.leave
  · rename_i more
    have member := inv.head_mem more
    have inside := ((inv.shelves.mem_global _).mp (inv.index_mem member)).1
    refine inv.turn free.symm (.at rfl ?_ ?_) (inv.tagged.move ?_ ?_ ?_)
    · intro x seen
      cases seen
      exact ⟨more, inside⟩
    · simp
    · simp [Pc.phase]
    · intro x seen
      cases seen
      exact .inr member
    · simp [Pc.phase]

theorem Invariant.readNext {old : Nat} (pc : s.pc t = .popRead old) :
    Invariant (s.setPc t (.popSwap old (s.next (Entry.index old)))) place cells := by
  have known : (s.pc t).phase.seen = some old := by rw [pc]; rfl
  refine inv.turn (by rw [pc]; rfl) (.at rfl ?_ ?_) (inv.tagged.move ?_ ?_ ?_)
  · intro x seen
    cases seen
    exact (inv.placed t).seen old known
  · simp
  · simp [Pc.phase]
  · intro x seen
    cases seen
    exact .inl known
  · intro old' new' same
    cases same
    rfl

theorem Invariant.retryPop (free : (s.pc t).pushing = none) : Invariant (s.setPc t .popLoad) place cells :=
  inv.turn free.symm (.away (.inr rfl)) inv.tagged.leave

/-- A step of a push that keeps its word. -/
theorem Invariant.holdPush {b : Pc} {tag : Nat} (before : (s.pc t).pushing = some i)
    (entry : (s.pc t).phase = .pending (Entry.pack i tag)) (after : b.pushing = some i)
    (entry' : b.phase = .pending (Entry.pack i tag)) (unwritten : ∀ i tag old, b ≠ .pushSwap i tag old) :
    Invariant (s.setPc t b) place cells := by
  obtain ⟨inside, here⟩ := (inv.placed t).hands i before
  refine inv.turn (after.trans before.symm) (.pusher after inside here ?_) ?_
  · intro j tag' old swapping
    exact absurd swapping (unwritten j tag' old)
  · rw [entry', ← entry]
    exact (Function.update_eq_self t (Pc.phase ∘ s.pc)).symm ▸ inv.tagged

/-- The slot being pushed is in nobody else's hands and on no list, so its link may be written. -/
theorem Invariant.writeNext {tag old : Nat} (pc : s.pc t = .pushWrite i tag old) :
    Invariant ({ s with next := Function.update s.next i old }.setPc t (.pushSwap i tag old)) place cells := by
  have before : (s.pc t).pushing = some i := by rw [pc]; rfl
  obtain ⟨inside, here⟩ := (inv.placed t).hands i before
  have unlisted := inv.unlisted before
  refine ⟨inv.fits, inv.shelves.write unlisted old, ?_, ?_, inv.owned, ?_, inv.refilled, inv.alternates⟩
  · refine inv.placed_update (.pusher rfl inside here ?_) ?_
    · intro j tag' old' swapping
      cases swapping
      exact Function.update_self ..
    · intro u j differ pushing
      refine ⟨rfl, Function.update_of_ne ?_ ..⟩
      intro clash
      subst clash
      exact differ (inv.alone before pushing)
  · refine inv.busy_update ?_ fun _ _ _ _ => id
    intro j inside' held
    exact before.symm.trans (inv.busy j inside' t held)
  · have phase : (Pc.phase ∘ s.pc) t = .pending (Entry.pack i tag) := by rw [Function.comp_apply, pc]; rfl
    simp only [System.setPc, Function.comp_update, words_write (inv.shelves.notMem_global unlisted)]
    rw [show Pc.phase (.pushSwap i tag old) = (Pc.phase ∘ s.pc) t from phase.symm, Function.update_eq_self]
    apply inv.tagged.write
    intro x member same
    exact inv.shelves.notMem_global unlisted (same ▸ inv.index_mem member)

/-- The exchange of a push succeeds: the slot becomes the first of the list. -/
theorem Invariant.install {word : Nat} (before : (s.pc t).pushing = some i) (entry : (s.pc t).phase = .pending word)
    (points : globalCell word = some i) (written : s.next i = s.head) :
    Invariant (({ s with head := word }.record (.pushed t i)).setPc t .idle) (Function.update place i .global)
      (i :: cells) := by
  obtain ⟨inside, here⟩ := (inv.placed t).hands i before
  refine ⟨inv.fits, inv.shelves.pushGlobal (inv.unlisted before) inside points written, ?_, ?_, ?_, ?_, ?_,
    inv.alternates.pushed t⟩
  · refine inv.placed_update (.away (.inl rfl)) ?_
    intro u j differ pushing
    refine ⟨Function.update_of_ne ?_ .., rfl⟩
    intro clash
    subst clash
    exact differ (inv.alone before pushing)
  · refine inv.busy_leave (by simp) ?_
    intro j pushing
    exact Option.some.inj (pushing.symm.trans before)
  · intro j
    by_cases same : j = i
    · subst same
      simpa [System.setPc, System.record, here] using inv.owned j
    · simpa [System.setPc, System.record, same] using inv.owned j
  · simp only [System.setPc, System.record, Function.comp_update, words, written]
    exact inv.tagged.push entry
  · intro j member
    by_cases same : j = i
    · subst same
      exact ⟨[], s.log, t, rfl, by simp⟩
    · exact (inv.refilled j ((List.mem_cons.mp member).resolve_left same)).after (by simp)

/-- The exchange of a pop succeeds: the first slot of the list becomes the thread's own. -/
theorem Invariant.take {old new : Nat} (pc : s.pc t = .popSwap old new) (top : s.head = old) :
    ∃ cells', Invariant (({ s with head := new, owner := Function.update s.owner (Entry.index old) (some t) }.record
      (.popped t (Entry.index old))).setPc t .idle) (Function.update place (Entry.index old) .inUse) cells' := by
  have more := ((inv.placed t).seen old (by rw [pc]; rfl)).1
  subst top
  have current := inv.tagged.current t s.head new (by rw [Function.comp_apply, pc]; rfl) (Nat.zero_le _)
    (inv.head_mem more)
  subst current
  obtain ⟨rest, rfl⟩ := inv.top more
  obtain ⟨inside, here⟩ := (inv.shelves.mem_global _).mp List.mem_cons_self
  have fresh := (List.nodup_cons.mp inv.shelves.globalNodup).1
  have free : ∀ u, (s.pc u).pushing ≠ some (Entry.index s.head) := by
    intro u pushing
    exact inv.unlisted pushing (here ▸ trivial)
  refine ⟨rest, inv.fits, inv.shelves.popGlobal id, ?_, ?_, ?_, ?_, ?_, ?_⟩
  · refine inv.placed_update (.away (.inl rfl)) ?_
    intro u j _ pushing
    refine ⟨Function.update_of_ne ?_ .., rfl⟩
    intro clash
    subst clash
    exact free u pushing
  · exact inv.busy_leave nofun (by simp [pc, Pc.pushing])
  · intro j
    by_cases same : j = Entry.index s.head
    · subst same
      simp [System.setPc, System.record, inside]
    · simpa [System.setPc, System.record, same] using inv.owned j
  · simp only [System.setPc, System.record, Function.comp_update]
    exact inv.tagged.tail.leave
  · intro j member
    have differ : j ≠ Entry.index s.head := by
      intro same
      exact fresh (same ▸ member)
    exact (inv.refilled j (List.mem_cons_of_mem _ member)).after (by simp [Ne.symm differ])
  · exact inv.alternates.popped (inv.refilled _ List.mem_cons_self) t

theorem Invariant.draw (free : (s.pc t).pushing = none) (mine : s.owner i = some t) (room : s.tag < 2^46) :
    Invariant (s.drawTag t i) (Function.update place i (.held t)) cells := by
  obtain ⟨inside, here⟩ := (inv.owned i).mp (by rw [mine]; rfl)
  have fits := inv.fits
  have count : (s.tag + 1) % 2^64 = s.tag + 1 := Nat.mod_eq_of_lt (by omega)
  have unlisted : ¬ (place i).Listed := by
    rw [here]
    exact id
  unfold System.drawTag
  rw [if_neg (by omega), if_neg (by omega)]
  refine ⟨inv.fits, inv.shelves.move unlisted id, ?_, ?_, ?_, ?_, inv.refilled, inv.alternates⟩
  · refine inv.placed_update (.pusher rfl inside (Function.update_self ..) nofun) ?_
    intro u j _ pushing
    refine ⟨Function.update_of_ne ?_ .., rfl⟩
    intro clash
    subst clash
    exact absurd (here.symm.trans ((inv.placed u).hands j pushing).2) nofun
  · apply inv.busy_update
    · intro j inside' held
      by_cases same : j = i
      · rw [same]
        rfl
      · rw [Function.update_of_ne same] at held
        exact absurd (free.symm.trans (inv.busy j inside' t held)) nofun
    · intro j inside' u differ held
      by_cases same : j = i
      · subst same
        rw [Function.update_self, Place.held.injEq] at held
        exact absurd held.symm differ
      · rwa [Function.update_of_ne same] at held
  · intro j
    by_cases same : j = i
    · subst same
      simp [System.setPc]
    · simpa [System.setPc, same] using inv.owned j
  · simp only [System.setPc, Function.comp_update, count]
    exact inv.tagged.draw (Entry.tag_pack (by omega) _)

theorem Invariant.advance {s' : System T} (advanced : s.advance t = some s') :
    ∃ place' cells', Invariant s' place' cells' := by
  unfold System.advance at advanced
  split at advanced
  case h_1 => cases advanced
  case h_2 pc =>
    cases advanced
    exact ⟨_, _, inv.loadHead (by rw [pc]; rfl)⟩
  case h_3 old pc =>
    cases advanced
    rw [if_pos ((inv.placed t).seen old (by rw [pc]; rfl)).2]
    exact ⟨_, _, inv.readNext pc⟩
  case h_4 old new pc =>
    split at advanced
    · rename_i top
      cases advanced
      obtain ⟨cells', kept⟩ := inv.take pc top
      exact ⟨_, _, kept⟩
    · cases advanced
      exact ⟨_, _, inv.retryPop (by rw [pc]; rfl)⟩
  case h_5 i tag pc =>
    cases advanced
    exact ⟨_, _, inv.holdPush (i := i) (by rw [pc]; rfl) (by rw [pc]; rfl) rfl rfl nofun⟩
  case h_6 i tag old pc =>
    have inside := ((inv.placed t).hands i (by rw [pc]; rfl)).1
    rw [if_pos inside] at advanced
    cases advanced
    exact ⟨_, _, inv.writeNext pc⟩
  case h_7 i tag old pc =>
    split at advanced
    · rename_i top
      cases advanced
      have before : (s.pc t).pushing = some i := by rw [pc]; rfl
      have inside := ((inv.placed t).hands i before).1
      have fits := inv.fits
      exact ⟨_, _, inv.install before (by rw [pc]; rfl) (globalCell_pack (by omega))
        (((inv.placed t).written i tag old pc).trans top.symm)⟩
    · cases advanced
      exact ⟨_, _, inv.holdPush (i := i) (by rw [pc]; rfl) (by rw [pc]; rfl) rfl rfl nofun⟩
  case h_8 => cases advanced

end Steps

theorem newEmpty_invariant {size : Nat} (fits : size < 2^18) (next : Nat → Nat) (assigned : Nat → T) :
    Invariant (System.newEmpty size next assigned) (fun _ => .inUse) [] where
  fits := fits
  shelves := ⟨rfl, fun _ => rfl, List.nodup_nil, fun _ => List.nodup_nil, by simp, by simp⟩
  placed _ := .away (.inl rfl)
  busy := nofun
  owned i := by
    by_cases inside : i < size <;> simp [System.newEmpty, inside]
  tagged := by
    constructor <;> simp [words, System.newEmpty, Pc.phase, Phase.seen]
  refilled := nofun
  alternates := by
    intro later between earlier t u i split
    simp [System.newEmpty] at split

section Runs

variable [DecidableEq T] {s s' : System T} {t : T} {action : Action}

/-- A push has drawn a tag that does not fit. -/
def Exhausted (s : System T) : Prop := ∃ t, s.pc t = .panicked .tagOverflow

theorem step_other {u : T} (differ : u ≠ t) (stepped : s.step (t, action) = some s') : s'.pc u = s.pc u := by
  cases action <;> simp only [System.step, System.advance] at stepped
  all_goals repeat' split at stepped
  all_goals cases stepped
  all_goals exact System.setPc_of_ne _ _ differ

theorem Exhausted.step (exhausted : Exhausted s) (stepped : s.step (t, action) = some s') : Exhausted s' := by
  obtain ⟨u, panicked⟩ := exhausted
  refine ⟨u, ?_⟩
  by_cases same : u = t
  · subst same
    cases action <;> simp [System.step, System.advance, panicked] at stepped
  · rw [step_other same stepped, panicked]

theorem Invariant.step {place : Nat → Place T} {cells : List Nat} (inv : Invariant s place cells)
    (stepped : s.step (t, action) = some s') : Exhausted s' ∨ ∃ place' cells', Invariant s' place' cells' := by
  cases action with
  | advance => exact .inr (inv.advance stepped)
  | pop =>
    simp only [System.step] at stepped
    split at stepped
    · rename_i pc
      cases stepped
      exact .inr ⟨_, _, inv.loadHead (by rw [pc]; rfl)⟩
    · cases stepped
  | push i =>
    simp only [System.step] at stepped
    split at stepped
    · rename_i pc
      split at stepped
      · rename_i mine
        cases stepped
        by_cases room : s.tag < 2^46
        · exact .inr ⟨_, _, inv.draw (by rw [pc]; rfl) mine room⟩
        · have inside := ((inv.owned i).mp (by rw [mine]; rfl)).1
          have fits := inv.fits
          refine .inl ⟨t, ?_⟩
          rw [System.drawTag, if_neg (by omega), if_pos (by omega), System.setPc_self]
      · cases stepped
    · cases stepped

/-- In every state that any interleaving reaches, the chain from the head is a list without repetition, every index
    is on it, owned or in flight and only one of these, no index is popped twice without a push in between, and no
    word in flight is the end marker. -/
theorem entries_kept_once {size : Nat} (fits : size < 2^18) (next : Nat → Nat) (assigned : Nat → T)
    (schedule : List (T × Action)) {s : System T}
    (reached : run System.step (System.newEmpty size next assigned) schedule = some s)
    (room : ∀ t, s.pc t ≠ .panicked .tagOverflow) :
    (∃ cells, Linked globalCell s.next s.head cells ∧ cells.Nodup ∧ (∀ i ∈ cells, i < s.size) ∧
      ∀ i < s.size, (i ∈ cells ∧ s.owner i = none ∧ ∀ t, (s.pc t).pushing ≠ some i) ∨
        (i ∉ cells ∧ (∃ t, s.owner i = some t) ∧ ∀ t, (s.pc t).pushing ≠ some i) ∨
        (i ∉ cells ∧ s.owner i = none ∧
          ∃ t, (s.pc t).pushing = some i ∧ ∀ u, (s.pc u).pushing = some i → u = t)) ∧
      Alternates s.log ∧ (∀ t word, (s.pc t).entry = some word → word ≠ EMPTY) ∧
      ∀ t reason, s.pc t ≠ .panicked reason := by
  have preserved : ∀ (s : System T) (a : T × Action) (s' : System T),
      (Exhausted s ∨ ∃ place cells, Invariant s place cells) → s.step a = some s' →
      Exhausted s' ∨ ∃ place cells, Invariant s' place cells := by
    intro s a s' before stepped
    rcases before with exhausted | ⟨_, _, inv⟩
    · exact .inl (exhausted.step stepped)
    · exact inv.step stepped
  rcases run_ensures preserved (.inr ⟨_, _, newEmpty_invariant fits next assigned⟩) reached with
    ⟨t, panicked⟩ | ⟨_, cells, inv⟩
  · exact absurd panicked (room t)
  refine ⟨⟨cells, inv.shelves.globalLinked, inv.shelves.globalNodup, ?_, fun i => inv.accounted⟩, inv.alternates, ?_,
    fun t => (inv.placed t).calm⟩
  · intro i member
    exact ((inv.shelves.mem_global i).mp member).1
  · intro t word entry
    obtain ⟨i, tag, pushing, rfl⟩ := Pc.entry_eq entry
    have inside := ((inv.placed t).hands i pushing).1
    have bound := inv.fits
    exact Entry.pack_ne_empty (by omega)

theorem entries_kept_once_reused :
    ∃ s : System Bool, run System.step (System.newEmpty 2 (fun _ => EMPTY) fun _ => false)
        [(false, .push 0), (false, .advance), (false, .advance), (false, .advance), (true, .pop), (true, .advance),
          (true, .advance), (true, .push 0), (true, .advance), (false, .push 1)] = some s ∧
      s.pc true = .pushWrite 0 1 EMPTY ∧ s.pc false = .pushLoad 1 2 ∧ Alternates s.log := by
  have reached : ∃ s : System Bool, run System.step (System.newEmpty 2 (fun _ => EMPTY) fun _ => false)
        [(false, .push 0), (false, .advance), (false, .advance), (false, .advance), (true, .pop), (true, .advance),
          (true, .advance), (true, .push 0), (true, .advance), (false, .push 1)] = some s ∧
      s.pc true = .pushWrite 0 1 EMPTY ∧ s.pc false = .pushLoad 1 2 := ⟨_, rfl, rfl, rfl⟩
  obtain ⟨s, reached, first, second⟩ := reached
  have room : ∀ t, s.pc t ≠ .panicked .tagOverflow := by
    intro t
    cases t
    · rw [second]
      nofun
    · rw [first]
      nofun
  exact ⟨s, reached, first, second, (entries_kept_once (by decide) _ _ _ reached room).2.1⟩

end Runs

end PlatyposSlab.GlobalFreeList
