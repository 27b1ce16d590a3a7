/-! Queues: what is pushed first is popped first. A queue is seen through `toList`, oldest first;
    `toList_push` and `pop?_eq` say what the operations do to that view. -/

namespace LocalEndpoint

/-- A queue as a front in order and a back in reverse, with the number of its elements. -/
structure Fifo (α : Type) where
  front : List α := []
  back : List α := []
  size : Nat := 0
  size_eq : size = front.length + back.length := by rfl

namespace Fifo

variable {α : Type}

/-- The queue without elements. -/
def empty : Fifo α := {}

/-- The elements, oldest first. -/
def toList (q : Fifo α) : List α := q.front ++ q.back.reverse

/-- Adds the newest element. -/
def push (q : Fifo α) (a : α) : Fifo α :=
  { front := q.front, back := a :: q.back, size := q.size + 1
    size_eq := by rw [q.size_eq, List.length_cons, Nat.add_assoc] }

/-- The oldest element and the queue without it. -/
def pop? (q : Fifo α) : Option (α × Fifo α) :=
  match hf : q.front with
  | a :: r =>
    some (a, { front := r, back := q.back, size := q.size - 1
               size_eq := by rw [q.size_eq, hf, List.length_cons]; omega })
  | [] =>
    match hb : q.back.reverse with
    | a :: r =>
      some (a, { front := r, back := [], size := q.size - 1
                 size_eq := by
                   have h := congrArg List.length hb
                   rw [List.length_reverse, List.length_cons] at h
                   rw [q.size_eq, hf, h]; simp })
    | [] => none

theorem size_eq_length (q : Fifo α) : q.size = q.toList.length := by
  rw [q.size_eq, toList, List.length_append, List.length_reverse]

@[simp] theorem toList_empty : (empty : Fifo α).toList = [] := rfl

@[simp] theorem toList_push (q : Fifo α) (a : α) : (q.push a).toList = q.toList ++ [a] := by
  simp [toList, push]

theorem pop?_eq (q : Fifo α) :
    (q.pop?).map (fun p => (p.1, p.2.toList)) =
      q.toList.head?.map (fun a => (a, q.toList.tail)) := by
  unfold pop? toList
  split
  · next a r h => simp [h]
  · next h =>
    split
    · next a r hb => simp [h, hb]
    · next hb => simp [h, hb]

end Fifo

end LocalEndpoint
