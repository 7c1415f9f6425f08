import Mathlib.Data.List.TakeWhile

universe u

/-- A mutable cursor into a linked list, between the elements before it and those from it on.
    The cursor is null when nothing stands after it. -/
structure Cursor (α : Type u) where
  before : List α
  after : List α

namespace Cursor

variable {α : Type u}

def toList (c : Cursor α) : List α := c.before ++ c.after

def seek (stop : α → Bool) (list : List α) : Cursor α :=
  ⟨list.takeWhile fun x => !stop x, list.dropWhile fun x => !stop x⟩

def cursorMutFromPtr [DecidableEq α] (list : List α) (x : α) : Cursor α := seek (fun y => decide (y = x)) list

def get (c : Cursor α) : Option α := c.after.head?

def peekNext (c : Cursor α) : Option α :=
  match c.after with
  | [] => c.before.head?
  | _ :: rest => rest.head?

def peekPrev (c : Cursor α) : Option α := c.before.getLast?

def movePrev (c : Cursor α) : Cursor α :=
  match c.before.getLast? with
  | none => ⟨c.after, []⟩
  | some x => ⟨c.before.dropLast, x :: c.after⟩

def remove (c : Cursor α) : Cursor α := ⟨c.before, c.after.tail⟩

def insertBefore (c : Cursor α) (x : α) : Cursor α := ⟨c.before ++ [x], c.after⟩

@[simp] theorem toList_mk (before after : List α) : (Cursor.mk before after).toList = before ++ after := rfl

@[simp] theorem insertBefore_movePrev (c : Cursor α) (x : α) :
    (c.insertBefore x).movePrev = ⟨c.before, x :: c.after⟩ := by
  simp [insertBefore, movePrev]

@[simp] theorem toList_seek (stop : α → Bool) (list : List α) : (seek stop list).toList = list :=
  List.takeWhile_append_dropWhile

theorem seek_before {stop : α → Bool} {list : List α} {x : α} (member : x ∈ (seek stop list).before) :
    stop x = false := by
  simpa using List.mem_takeWhile_imp member

theorem seek_after {stop : α → Bool} {list : List α} {x : α} {rest : List α}
    (found : (seek stop list).after = x :: rest) : stop x = true := by
  have head := List.head?_dropWhile_not (fun x => !stop x) list
  simp only [seek] at found
  simpa [found] using head

theorem seek_split {stop : α → Bool} {list : List α} {x : α} {rest : List α}
    (found : (seek stop list).after = x :: rest) : list = (seek stop list).before ++ x :: rest := by
  rw [← found]
  exact (toList_seek stop list).symm

theorem seek_none {stop : α → Bool} {list : List α} (missing : (seek stop list).after = []) :
    (seek stop list).before = list := by
  have whole := toList_seek stop list
  rwa [toList, missing, List.append_nil] at whole

theorem seek_eq {stop : α → Bool} {front back : List α} {x : α} (skipped : ∀ y ∈ front, stop y = false)
    (here : stop x = true) : seek stop (front ++ x :: back) = ⟨front, x :: back⟩ := by
  have passed : ∀ y ∈ front, (!stop y) = true := by
    intro y member
    rw [skipped y member]
    rfl
  unfold seek
  rw [List.takeWhile_append_of_pos passed, List.dropWhile_append_of_pos passed]
  simp [here]

theorem cursorMutFromPtr_split [DecidableEq α] {before after : List α} {x : α} (fresh : x ∉ before) :
    cursorMutFromPtr (before ++ x :: after) x = ⟨before, x :: after⟩ := by
  have skipped : ∀ y ∈ before, decide (y = x) = false := by
    intro y member
    rw [decide_eq_false_iff_not]
    rintro rfl
    exact fresh member
  exact seek_eq skipped (decide_eq_true rfl)

theorem toList_remove_cursorMutFromPtr [DecidableEq α] (list : List α) (x : α) :
    (cursorMutFromPtr list x).remove.toList = list.erase x := by
  induction list with
  | nil => rfl
  | cons y rest ih =>
    by_cases same : y = x
    · simp [cursorMutFromPtr, seek, remove, toList, same]
    · simp only [cursorMutFromPtr, seek, remove, toList] at ih
      simp [cursorMutFromPtr, seek, remove, toList, same, ih]

end Cursor
