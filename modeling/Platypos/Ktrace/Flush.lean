import Platypos.Library.Schedule
import Platypos.Ktrace.EndToEnd

namespace Platypos.Ktrace.Flush

open Schedule Outcome

/-- Where a flow of control (a program, an interrupt handler or a panic handler) stands in `flush`. The byte that is
    sent next is the first of those left. -/
inductive Pc where
  | away
  | locking
  | popping
  | writing (left : List UInt8)
  | unlocking

/-- It has the worker. -/
def Pc.Holds : Pc → Prop
  | .away => False
  | .locking => False
  | _ => True

/-- The queue with its worker, which is out of reach until `WORKER` is initialised. A slot stays in the ring while it is
    being written. `sent` is what has been queued. -/
structure System (T : Type) where
  pipeline : Pipeline
  initialised : Bool
  locked : Bool
  pc : T → Pc
  sent : List SenderMessage

inductive Act where
  | send (msg : SenderMessage)
  | init
  | flush
  | advance

namespace System

variable {T : Type}

def start : System T := ⟨Pipeline.init, false, false, fun _ => .away, []⟩

variable [DecidableEq T]

def setPc (s : System T) (t : T) (pc : Pc) : System T := { s with pc := Function.update s.pc t pc }

@[simp] theorem setPc_self (s : System T) (t : T) (pc : Pc) : (s.setPc t pc).pc t = pc := Function.update_self ..

@[simp] theorem setPc_of_ne (s : System T) (pc : Pc) {t u : T} (differ : u ≠ t) : (s.setPc t pc).pc u = s.pc u :=
  Function.update_of_ne differ ..

/-- The next step of `flush`: `try_lock`, `pop_ref`, a byte of `write_all`, or a guard that is dropped. -/
def advance (s : System T) (t : T) : Option (System T) :=
  match s.pc t with
  | .away => none
  | .locking => some (if s.locked then s.setPc t .away else { s with locked := true }.setPc t .popping)
  | .popping =>
    match s.pipeline.queue.queued with
    | [] => some (s.setPc t .unlocking)
    | slot :: _ =>
      some ({ s with pipeline.worker.totalEvents := s.pipeline.worker.totalEvents + 1 }.setPc t
        (.writing slot.data.data))
  | .writing (byte :: left) =>
    some ({ s with pipeline.worker.written := s.pipeline.worker.written ++ [byte] }.setPc t (.writing left))
  | .writing [] =>
    some ({ s with pipeline.queue := ⟨s.pipeline.queue.queued.tail,
      s.pipeline.queue.popped ++ s.pipeline.queue.queued.take 1⟩ }.setPc t .popping)
  | .unlocking => some ({ s with locked := false }.setPc t .away)

/-- One step of one flow of control. A push to the queue is a single step, unless it panics. -/
def step (s : System T) : T × Act → Option (System T)
  | (_, .send msg) =>
    match s.pipeline.send msg with
    | .ok (queued, pipeline) =>
      some { s with pipeline := pipeline, sent := accepted s.sent (.send msg) queued }
    | .error _ => none
  | (_, .init) => some { s with initialised := true }
  | (t, .flush) =>
    match s.pc t with
    | .away => some (s.setPc t (if s.initialised then .locking else .away))
    | _ => none
  | (t, .advance) => s.advance t

end System

def bytes (queued : List Queue.Message) : List (List UInt8) := queued.map fun slot => slot.data.data

variable {T : Type}

/-- The messages have been written up to one that a single flow of control may be at. -/
structure Invariant (s : System T) (holder : Option T) (drained : List (List UInt8)) (part : List UInt8) : Prop where
  locked : s.locked = holder.isSome
  holds : ∀ t, (s.pc t).Holds ↔ holder = some t
  leaves : List.Forall₂ Message.Leaves s.sent (drained ++ bytes s.pipeline.queue.queued)
  written : s.pipeline.worker.written = START_OF_OUTPUT ++ (drained.flatten ++ part)
  rest : (∀ t left, s.pc t ≠ .writing left) → part = []
  writing : ∀ t left, s.pc t = .writing left →
    ∃ slot later, s.pipeline.queue.queued = slot :: later ∧ slot.data.data = part ++ left

def Ordered (s : System T) : Prop := ∃ holder drained part, Invariant s holder drained part

section Steps

variable {s s' : System T} {t : T} {holder : Option T} {drained : List (List UInt8)} {part : List UInt8}
  (inv : Invariant s holder drained part)

include inv

/-- Whoever is at the worker is the only one that writes. -/
theorem Invariant.alone (held : (s.pc t).Holds) {u : T} {left : List UInt8} (writes : s.pc u = .writing left) : u = t := by
  have mine := (inv.holds t).mp held
  have other := (inv.holds u).mp (by rw [writes]; trivial)
  exact Option.some.inj (other.symm.trans mine)

theorem Invariant.nobody (held : (s.pc t).Holds) (idle : ∀ left, s.pc t ≠ .writing left) : part = [] := by
  apply inv.rest
  intro u left writes
  have same := inv.alone held writes
  subst same
  exact idle left writes

theorem Invariant.send {msg : SenderMessage} {queued : Bool} {pipeline : Pipeline}
    (pushed : s.pipeline.send msg = .ok (queued, pipeline)) :
    Invariant { s with pipeline := pipeline, sent := accepted s.sent (.send msg) queued } holder drained part := by
  unfold Pipeline.send at pushed
  split at pushed
  · cases pushed
    exact inv
  · rename_i slot popped claimed
    obtain ⟨slot', written, done⟩ := bind_eq_ok.mp pushed
    cases done
    have left := (Queue.Message.writeMessage_leaves (Queue.claim_empty claimed) written).1
    refine { inv with leaves := ?_, writing := ?_ }
    · simp only [bytes, List.map_append, List.map_cons, List.map_nil, ← List.append_assoc]
      exact List.rel_append inv.leaves (.cons left .nil)
    · intro u bytes writes
      obtain ⟨first, later, same, split⟩ := inv.writing u bytes writes
      exact ⟨first, later ++ [slot'], by rw [same, List.cons_append], split⟩

variable [DecidableEq T]

/-- A flow that moves neither from nor to writing. -/
theorem Invariant.turn {pc : Pc} {locked : Bool} {holder' : Option T} (free : ∀ left, s.pc t ≠ .writing left)
    (free' : ∀ left, pc ≠ .writing left) (lock : locked = holder'.isSome) (mine : pc.Holds ↔ holder' = some t)
    (others : ∀ u, u ≠ t → (holder = some u ↔ holder' = some u)) :
    Invariant ({ s with locked := locked }.setPc t pc) holder' drained part := by
  have writes : ∀ u left, ({ s with locked := locked }.setPc t pc).pc u = .writing left ↔ s.pc u = .writing left := by
    intro u left
    by_cases here : u = t
    · subst here
      rw [System.setPc_self]
      exact iff_of_false (free' left) (free left)
    · rw [System.setPc_of_ne _ _ here]
  refine { inv with locked := lock, holds := ?_, rest := ?_, writing := ?_ }
  · intro u
    by_cases here : u = t
    · subst here
      rw [System.setPc_self]
      exact mine
    · rw [System.setPc_of_ne _ _ here]
      exact (inv.holds u).trans (others u here)
  · intro none
    apply inv.rest
    intro u left writing
    exact none u left ((writes u left).mpr writing)
  · intro u left writing
    exact inv.writing u left ((writes u left).mp writing)

/-- The holder alone decides who writes. -/
theorem Invariant.settle {pc : Pc} {drained' : List (List UInt8)} {part' : List UInt8} {pipeline : Pipeline}
    (held : (s.pc t).Holds) (holding : pc.Holds)
    (leaves : List.Forall₂ Message.Leaves s.sent (drained' ++ bytes pipeline.queue.queued))
    (written : pipeline.worker.written = START_OF_OUTPUT ++ (drained'.flatten ++ part'))
    (rest : (∀ left, pc ≠ .writing left) → part' = [])
    (writing : ∀ left, pc = .writing left →
      ∃ slot later, pipeline.queue.queued = slot :: later ∧ slot.data.data = part' ++ left) :
    Invariant ({ s with pipeline := pipeline }.setPc t pc) holder drained' part' := by
  have mine := (inv.holds t).mp held
  refine ⟨inv.locked, ?_, leaves, written, ?_, ?_⟩
  · intro u
    by_cases here : u = t
    · subst here
      rw [System.setPc_self]
      exact iff_of_true holding mine
    · rw [System.setPc_of_ne _ _ here]
      exact inv.holds u
  · intro none
    apply rest
    intro left writes
    apply none t left
    rw [System.setPc_self, writes]
  · intro u left writes
    by_cases here : u = t
    · subst here
      rw [System.setPc_self] at writes
      exact writing left writes
    · rw [System.setPc_of_ne _ _ here] at writes
      exact absurd (inv.alone held writes) here

theorem Invariant.advance (advanced : s.advance t = some s') : Ordered s' := by
  unfold System.advance at advanced
  split at advanced
  case h_1 => cases advanced
  case h_2 pc =>
    split at advanced
    · cases advanced
      refine ⟨holder, drained, part, inv.turn (by simp [pc]) (by simp) inv.locked ?_ fun _ _ => Iff.rfl⟩
      rw [← inv.holds t, pc]
      exact Iff.rfl
    · rename_i free
      cases advanced
      have none : holder = none := by
        rw [← Option.not_isSome_iff_eq_none, ← inv.locked]
        exact free
      subst none
      refine ⟨some t, drained, part, inv.turn (by simp [pc]) (by simp) rfl (iff_of_true trivial rfl) ?_⟩
      intro u differ
      exact iff_of_false (by simp) fun same => differ (Option.some.inj same).symm
  case h_3 pc =>
    have held : (s.pc t).Holds := by rw [pc]; trivial
    obtain rfl := inv.nobody held (by simp [pc])
    split at advanced
    · rename_i empty
      cases advanced
      exact ⟨holder, drained, [], inv.turn (by simp [pc]) (by simp) inv.locked
        (iff_of_true trivial ((inv.holds t).mp held)) fun _ _ => Iff.rfl⟩
    · rename_i slot later queued
      cases advanced
      refine ⟨holder, drained, [], inv.settle held trivial ?_ ?_ (fun _ => rfl) ?_⟩
      · exact inv.leaves
      · exact inv.written
      · intro left same
        cases same
        exact ⟨slot, later, queued, rfl⟩
  case h_4 byte left pc =>
    have held : (s.pc t).Holds := by rw [pc]; trivial
    obtain ⟨slot, later, queued, split⟩ := inv.writing t _ pc
    cases advanced
    refine ⟨holder, drained, part ++ [byte], inv.settle held trivial inv.leaves ?_ ?_ ?_⟩
    · simp only [inv.written, List.append_assoc]
    · intro none
      exact absurd rfl (none left)
    · intro left' same
      cases same
      exact ⟨slot, later, queued, by rw [split, List.append_assoc, List.singleton_append]⟩
  case h_5 pc =>
    have held : (s.pc t).Holds := by rw [pc]; trivial
    obtain ⟨slot, later, queued, split⟩ := inv.writing t _ pc
    rw [List.append_nil] at split
    cases advanced
    refine ⟨holder, drained ++ [part], [], inv.settle held trivial ?_ ?_ (fun _ => rfl) (by simp)⟩
    · have leaves := inv.leaves
      rw [queued] at leaves ⊢
      rw [List.append_assoc, ← split]
      exact leaves
    · simp only [inv.written, List.flatten_append, List.flatten_singleton, List.append_nil]
  case h_6 pc =>
    have mine : holder = some t := (inv.holds t).mp (by rw [pc]; trivial)
    cases advanced
    refine ⟨none, drained, part, inv.turn (by simp [pc]) (by simp) rfl (iff_of_false id (by simp)) ?_⟩
    intro u differ
    rw [mine]
    exact iff_of_false (fun same => differ (Option.some.inj same).symm) (by simp)

theorem Invariant.step {a : T × Act} (stepped : s.step a = some s') : Ordered s' := by
  obtain ⟨t, act⟩ := a
  cases act with
  | send msg =>
    simp only [System.step] at stepped
    split at stepped
    · rename_i pushed
      cases stepped
      exact ⟨_, _, _, inv.send pushed⟩
    · cases stepped
  | init =>
    cases stepped
    exact ⟨holder, drained, part, { inv with }⟩
  | flush =>
    simp only [System.step] at stepped
    split at stepped
    · rename_i pc
      cases stepped
      refine ⟨holder, drained, part, inv.turn (by simp [pc]) ?_ inv.locked ?_ fun _ _ => Iff.rfl⟩
      · split <;> simp
      · rw [← inv.holds t, pc]
        split <;> exact Iff.rfl
    · cases stepped
  | advance => exact inv.advance stepped

end Steps

section Halves

variable {sent : List SenderMessage} {rs : List ReceiverMessage} {datas : List (List UInt8)}
  (arrived : sent.mapM Message.received = some rs)
  (room : ∀ m ∈ sent, ∀ bytes, m.encode = .ok (.ok bytes) → bytes.length ≤ 1024)

include arrived room

end Halves

variable [DecidableEq T] {s : System T} {schedule : List (T × Act)}

/-- Two flows of control flush while a third one enters and closes a span. The one that has the worker stops in the
    middle of the second message. -/
def stopped : List (Nat × Act) :=
  [(0, .flush), (0, .init), (0, .send (.spanEntered 1 0)), (1, .flush), (1, .advance), (1, .advance), (2, .flush),
    (1, .advance), (2, .advance), (1, .advance), (1, .advance), (0, .send (.spanClosed 1)), (1, .advance), (1, .advance),
    (1, .advance)]

end Platypos.Ktrace.Flush
