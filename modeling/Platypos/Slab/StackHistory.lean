import Platypos.Slab.GlobalFreeListSafety

namespace PlatyposSlab.GlobalFreeList

open Chain Schedule

variable {T : Type}

/-- The events on a plain stack. A pop that does not return the top of the stack has no result. -/
def replay : List (Event T) → Option (List Nat)
  | [] => some []
  | .pushed _ i :: log => (replay log).map (i :: ·)
  | .popped _ i :: log =>
    match replay log with
    | some (j :: rest) => if j = i then some rest else none
    | _ => none

theorem replay_pushed {log : List (Event T)} {cells : List Nat} (stack : replay log = some cells) (t : T) (i : Nat) :
    replay (.pushed t i :: log) = some (i :: cells) := by
  rw [replay, stack, Option.map_some]

theorem replay_popped {log : List (Event T)} {i : Nat} {rest : List Nat} (stack : replay log = some (i :: rest))
    (t : T) : replay (.popped t i :: log) = some rest := by
  rw [replay, stack]
  exact if_pos rfl

section Steps

variable {s s' : System T} {place : Nat → Place T} {cells : List Nat} {t : T} {action : Action}
  (inv : Invariant s place cells)

include inv

/-- A pop that succeeds installs what follows the top of the list. -/
theorem Invariant.successor {old new : Nat} (pc : s.pc t = .popSwap old new) (top : s.head = old) :
    ∃ rest, cells = Entry.index old :: rest ∧ Linked globalCell s.next new rest := by
  have more := ((inv.placed t).seen old (by rw [pc]; rfl)).1
  subst top
  have current := inv.tagged.current t s.head new (by rw [Function.comp_apply, pc]; rfl) (Nat.zero_le _)
    (inv.head_mem more)
  obtain ⟨rest, rfl⟩ := inv.top more
  refine ⟨rest, rfl, ?_⟩
  rw [current]
  exact inv.shelves.globalLinked.2

variable [DecidableEq T]

theorem Invariant.replay_advance (stack : replay s.log = some cells) (advanced : s.advance t = some s') :
    ∃ cells', replay s'.log = some cells' ∧ Linked globalCell s'.next s'.head cells' := by
  have linked := inv.shelves.globalLinked
  unfold System.advance at advanced
  split at advanced
  case h_1 => cases advanced
  case h_4 old new pc =>
    split at advanced
    · rename_i top
      cases advanced
      obtain ⟨rest, rfl, later⟩ := inv.successor pc top
      exact ⟨rest, replay_popped stack t, later⟩
    · cases advanced
      exact ⟨cells, stack, linked⟩
  case h_6 i tag old pc =>
    have before : (s.pc t).pushing = some i := by rw [pc]; rfl
    split at advanced
    · cases advanced
      exact ⟨cells, stack, linked.write (inv.shelves.notMem_global (inv.unlisted before))⟩
    · cases advanced
      exact ⟨cells, stack, linked⟩
  case h_7 i tag old pc =>
    split at advanced
    · rename_i top
      cases advanced
      have inside := ((inv.placed t).hands i (by rw [pc]; rfl)).1
      have fits := inv.fits
      have written : s.next i = s.head := ((inv.placed t).written i tag old pc).trans top.symm
      refine ⟨i :: cells, replay_pushed stack t i, globalCell_pack (by omega), ?_⟩
      show Linked globalCell s.next (s.next i) cells
      rwa [written]
    · cases advanced
      exact ⟨cells, stack, linked⟩
  case h_8 => cases advanced
  all_goals
    cases advanced
    exact ⟨cells, stack, linked⟩

theorem Invariant.replay_step (stack : replay s.log = some cells) (stepped : s.step (t, action) = some s') :
    ∃ cells', replay s'.log = some cells' ∧ Linked globalCell s'.next s'.head cells' := by
  cases action with
  | advance => exact inv.replay_advance stack stepped
  | pop =>
    simp only [System.step] at stepped
    split at stepped
    · cases stepped
      exact ⟨cells, stack, inv.shelves.globalLinked⟩
    · cases stepped
  | push i =>
    simp only [System.step] at stepped
    split at stepped
    · split at stepped
      · cases stepped
        exact ⟨cells, stack, inv.shelves.globalLinked⟩
      · cases stepped
    · cases stepped

end Steps

variable [DecidableEq T]

/-- In every state that any interleaving reaches, the list is what a plain stack holds after the same pushes and pops,
    in the order of their exchanges and with the same answers, and a pop finds no head exactly if that is empty. -/
theorem history_of_stack {size : Nat} (fits : size < 2^18) (next : Nat → Nat) (assigned : Nat → T)
    (schedule : List (T × Action)) {s : System T}
    (reached : run System.step (System.newEmpty size next assigned) schedule = some s)
    (room : ∀ t, s.pc t ≠ .panicked .tagOverflow) :
    ∃ cells, replay s.log = some cells ∧ Linked globalCell s.next s.head cells ∧ (s.head = EMPTY ↔ cells = []) := by
  have preserved : ∀ (s : System T) (a : T × Action) (s' : System T),
      (Exhausted s ∨ ∃ place cells, Invariant s place cells ∧ replay s.log = some cells) → s.step a = some s' →
      Exhausted s' ∨ ∃ place cells, Invariant s' place cells ∧ replay s'.log = some cells := by
    intro s a s' before stepped
    rcases before with exhausted | ⟨place, cells, inv, stack⟩
    · exact .inl (exhausted.step stepped)
    · rcases inv.step stepped with exhausted | ⟨place', cells', inv'⟩
      · exact .inl exhausted
      · obtain ⟨cells'', stack', linked⟩ := inv.replay_step stack stepped
        obtain rfl := linked.unique inv'.shelves.globalLinked
        exact .inr ⟨place', cells'', inv', stack'⟩
  rcases run_ensures preserved (.inr ⟨_, _, newEmpty_invariant fits next assigned, rfl⟩) reached with
    ⟨t, panicked⟩ | ⟨place, cells, inv, stack⟩
  · exact absurd panicked (room t)
  have linked := inv.shelves.globalLinked
  refine ⟨cells, stack, linked, ?_⟩
  constructor
  · intro none
    apply linked.unique
    simp [Linked, globalCell, none]
  · rintro rfl
    by_contra more
    simp [Linked, globalCell, more] at linked

/-- A pop has read the head and its successor when the head is popped and pushed again. Its exchange fails. -/
def overtaken : List (Bool × Action) :=
  [(false, .push 0), (false, .advance), (false, .advance), (false, .advance), (false, .pop), (false, .advance),
    (true, .pop), (true, .advance), (true, .advance), (true, .push 0), (true, .advance), (true, .advance),
    (true, .advance), (false, .advance)]

theorem history_of_stack_overtaken :
    ∃ (s : System Bool) (cells : List Nat),
      run System.step (System.newEmpty 1 (fun _ => EMPTY) fun _ => false) overtaken = some s ∧
        s.log = [.pushed true 0, .popped true 0, .pushed false 0] ∧ s.pc false = .popLoad ∧
        replay s.log = some cells ∧ Linked globalCell s.next s.head cells := by
  have reached : ∃ s : System Bool, run System.step (System.newEmpty 1 (fun _ => EMPTY) fun _ => false) overtaken =
      some s ∧ s.log = [.pushed true 0, .popped true 0, .pushed false 0] ∧ s.pc false = .popLoad ∧
      s.pc true = .idle := ⟨_, rfl, rfl, rfl, rfl⟩
  obtain ⟨s, reached, log, first, second⟩ := reached
  have room : ∀ t, s.pc t ≠ .panicked .tagOverflow := by
    intro t
    cases t
    · rw [first]
      nofun
    · rw [second]
      nofun
  obtain ⟨cells, stack, linked, _⟩ := history_of_stack (by decide) _ _ _ reached room
  exact ⟨s, cells, reached, log, first, stack, linked⟩

namespace Pc

/-- The steps that are left to a call if nobody else's exchange comes before its own. A word that is no longer the
    head costs it one more round. -/
def remaining (head : Nat) : Pc → Nat
  | .idle => 0
  | .popLoad => 3
  | .popRead oldHead => if head = oldHead then 2 else 5
  | .popSwap oldHead _ => if head = oldHead then 1 else 4
  | .pushLoad _ _ => 3
  | .pushWrite _ _ oldHead => if head = oldHead then 2 else 5
  | .pushSwap _ _ oldHead => if head = oldHead then 1 else 4
  | .panicked _ => 0

theorem remaining_le (head : Nat) (pc : Pc) : pc.remaining head ≤ 5 := by
  cases pc <;> grind [remaining]

end Pc

section Progress

variable {s s' : System T} {t u : T} {action : Action}

/-- The head changes only when a call takes effect. -/
theorem step_log (stepped : s.step (t, action) = some s') :
    (s'.head = s.head ∧ s'.log = s.log) ∨ s'.log.length = s.log.length + 1 := by
  cases action <;> simp only [System.step, System.advance] at stepped
  all_goals repeat' split at stepped
  all_goals cases stepped
  all_goals first | exact .inl ⟨rfl, rfl⟩ | exact .inr rfl

theorem advance_remaining (advanced : s.advance t = some s') :
    (s'.log = s.log ∧ (s'.pc t).remaining s'.head + 1 ≤ (s.pc t).remaining s.head) ∨
      (s'.log.length = s.log.length + 1 ∧ s'.pc t = .idle) := by
  unfold System.advance at advanced
  split at advanced
  case h_1 => cases advanced
  case h_2 pc =>
    cases advanced
    refine .inl ⟨rfl, ?_⟩
    rw [System.loadHead, System.setPc_self, pc]
    split <;> simp [Pc.remaining, System.setPc]
  case h_3 old pc =>
    cases advanced
    refine .inl ⟨rfl, ?_⟩
    rw [System.setPc_self, pc]
    split <;> grind [Pc.remaining, System.setPc]
  case h_4 old new pc =>
    split at advanced
    · cases advanced
      exact .inr ⟨rfl, System.setPc_self ..⟩
    · rename_i stale
      cases advanced
      refine .inl ⟨rfl, ?_⟩
      rw [System.setPc_self, pc, Pc.remaining, Pc.remaining, if_neg stale]
  case h_5 i tag pc =>
    cases advanced
    refine .inl ⟨rfl, ?_⟩
    rw [System.setPc_self, pc]
    simp [Pc.remaining, System.setPc]
  case h_6 i tag old pc =>
    split at advanced
    · cases advanced
      refine .inl ⟨rfl, ?_⟩
      rw [System.setPc_self, pc]
      grind [Pc.remaining, System.setPc]
    · cases advanced
      refine .inl ⟨rfl, ?_⟩
      rw [System.setPc_self, pc]
      grind [Pc.remaining]
  case h_7 i tag old pc =>
    split at advanced
    · cases advanced
      exact .inr ⟨rfl, System.setPc_self ..⟩
    · rename_i stale
      cases advanced
      refine .inl ⟨rfl, ?_⟩
      rw [System.setPc_self, pc, Pc.remaining, Pc.remaining, if_neg stale]
  case h_8 => cases advanced

/-- A call has found the head with its first step, or has still to load it once. -/
theorem call_remaining (begins : action ≠ .advance) (stepped : s.step (t, action) = some s') :
    (s'.pc t).remaining s'.head ≤ 3 := by
  cases action with
  | advance => exact absurd rfl begins
  | pop =>
    simp only [System.step] at stepped
    split at stepped
    · cases stepped
      rw [System.loadHead, System.setPc_self]
      split <;> simp [Pc.remaining, System.setPc]
    · cases stepped
  | push index =>
    simp only [System.step] at stepped
    split at stepped
    · split at stepped
      · cases stepped
        rw [System.drawTag, System.setPc_self]
        repeat' split
        all_goals simp [Pc.remaining]
      · cases stepped
    · cases stepped

/-- Five steps pay for a call, its first one included, and five more for each exchange that comes before its own. -/
theorem step_paid (t : T) (a : T × Action) (stepped : s.step a = some s') :
    (if a.1 = t then 1 else 0) + (s'.pc t).remaining s'.head + 5 * s.log.length ≤
      (s.pc t).remaining s.head + (if a.1 = t ∧ a.2 ≠ .advance then 5 else 0) + 5 * s'.log.length := by
  obtain ⟨u, action⟩ := a
  by_cases same : u = t
  · subst same
    rw [if_pos rfl]
    by_cases advance : action = .advance
    · subst advance
      rw [if_neg (by simp)]
      rcases advance_remaining stepped with ⟨log, less⟩ | ⟨log, idle⟩
      · rw [log]
        omega
      · rw [idle, log, Pc.remaining]
        omega
    · have short := call_remaining advance stepped
      rw [if_pos ⟨rfl, advance⟩]
      rcases step_log stepped with ⟨_, log⟩ | log
      · rw [log]
        omega
      · omega
  · have bound := Pc.remaining_le s'.head (s'.pc t)
    rw [if_neg same, if_neg (by simp [same])]
    rcases step_log stepped with ⟨head, log⟩ | log
    · rw [step_other (Ne.symm same) stepped, head, log]
      omega
    · omega

end Progress

/-- A thread that keeps trying is kept from finishing only by others that finish: all the steps it takes are bounded by
    the calls it begins and the pushes and pops that take effect, from any state on. -/
theorem steps_bounded_by_exchanges {s s' : System T} {schedule : List (T × Action)}
    (reached : run System.step s schedule = some s') (t : T) :
    schedule.countP (fun a => a.1 = t) ≤
      5 * (1 + schedule.countP (fun a => a.1 = t ∧ a.2 ≠ .advance) + (s'.log.length - s.log.length)) := by
  have paid : ∀ (s : System T) a s', s.step a = some s' →
      (if a.1 = t then 1 else 0) + (s'.pc t).remaining s'.head + 5 * s.log.length ≤
        (s.pc t).remaining s.head + (if a.1 = t ∧ a.2 ≠ .advance then 5 else 0) + 5 * s'.log.length :=
    fun _ a _ => step_paid t a
  have total := run_amortised paid reached
  have start := Pc.remaining_le s.head (s.pc t)
  omega

theorem steps_bounded_by_exchanges_overtaken :
    ∃ s : System Bool, run System.step (System.newEmpty 1 (fun _ => EMPTY) fun _ => false) overtaken = some s ∧
      s.log.length = 3 ∧ overtaken.countP (fun a => a.1 = false) = 7 ∧
      overtaken.countP (fun a => a.1 = false) ≤
        5 * (1 + overtaken.countP (fun a => a.1 = false ∧ a.2 ≠ .advance) + (s.log.length - 0)) := by
  have reached : ∃ s : System Bool, run System.step (System.newEmpty 1 (fun _ => EMPTY) fun _ => false) overtaken =
      some s ∧ s.log.length = 3 := ⟨_, rfl, rfl⟩
  obtain ⟨s, reached, events⟩ := reached
  exact ⟨s, reached, events, by decide, steps_bounded_by_exchanges reached false⟩

end PlatyposSlab.GlobalFreeList
