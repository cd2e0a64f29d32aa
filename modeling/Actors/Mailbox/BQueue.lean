/-
The mailbox `BQueue` of `actors/BQueue.hpp`: a bounded ring `cb_` (a `boost::circular_buffer`)
in front of an unbounded overflow deque. For every capacity and every sequence of operations the
pair refines a FIFO list whose value is `cb_ ++ overflow_`: `push` appends at the end (the ring
never overwrites an element, even when full), `pop` removes the head and reports whether the
queue drained, `peek`, `length` and `is_empty` read the list. Consequently what is popped is
always a prefix of what was pushed.
-/
import Mathlib.Data.List.Basic

namespace Actors

/-! ## The ring -/

/-- A `boost::circular_buffer`: its elements, oldest first, never more than its capacity. -/
structure CircularBuffer (α : Type) where
  capacity : Nat
  items : List α
  size_le : items.length ≤ capacity

namespace CircularBuffer

variable {α : Type}

def empty (c : CircularBuffer α) : Bool := c.items.isEmpty

def full (c : CircularBuffer α) : Bool := c.items.length == c.capacity

/-- `push_back`: on a full buffer the oldest element is overwritten; at capacity 0 nothing is
stored. -/
def pushBack (c : CircularBuffer α) (x : α) : CircularBuffer α :=
  if h : c.full then
    if hc : c.capacity = 0 then c
    else ⟨c.capacity, c.items.tail ++ [x], by
      simp only [full, beq_iff_eq] at h
      simp only [List.length_append, List.length_tail, List.length_singleton]; omega⟩
  else ⟨c.capacity, c.items ++ [x], by
    have := c.size_le
    simp only [full, beq_iff_eq] at h; simp only [List.length_append]; simp; omega⟩

def popFront (c : CircularBuffer α) : CircularBuffer α :=
  ⟨c.capacity, c.items.tail, le_trans (by simp) c.size_le⟩

@[simp] theorem items_popFront (c : CircularBuffer α) : c.popFront.items = c.items.tail := rfl

/-- Below capacity `push_back` appends. -/
theorem items_pushBack {c : CircularBuffer α} (h : c.full = false) (x : α) :
    (c.pushBack x).items = c.items ++ [x] := by
  simp [pushBack, h]

end CircularBuffer

/-! ## The blocking queue -/

/-- `BQueue<T>`: the ring `cb_` and the overflow deque `overflow_`. -/
structure BQueue (α : Type) where
  cb : CircularBuffer α
  overflow : List α

namespace BQueue

variable {α : Type}

/-- `BQueue(size_t n) : cb_(n)`. -/
def new (n : Nat) : BQueue α := ⟨⟨n, [], Nat.zero_le n⟩, []⟩

/-- The abstract value: the ring, then the overflow. -/
def contents (q : BQueue α) : List α := q.cb.items ++ q.overflow

def isEmpty (q : BQueue α) : Bool := q.cb.empty && q.overflow.isEmpty

def length (q : BQueue α) : Nat := q.cb.items.length + q.overflow.length

def push (q : BQueue α) (x : α) : BQueue α :=
  if !q.overflow.isEmpty || q.cb.full then { q with overflow := q.overflow ++ [x] }
  else { q with cb := q.cb.pushBack x }

/-- `pop`: the head (ring first) and `last`, whether both buffers are empty afterwards; `none`
when both are empty, where the C++ waits on the condition variable. -/
def pop (q : BQueue α) : Option (α × Bool × BQueue α) :=
  match q.cb.items, q.overflow with
  | x :: _, _ => some (x, ({ q with cb := q.cb.popFront } : BQueue α).isEmpty, { q with cb := q.cb.popFront })
  | [], x :: rest => some (x, ({ q with overflow := rest } : BQueue α).isEmpty, { q with overflow := rest })
  | [], [] => none

/-- `peek` on the pointer instance `BQueue<const Message *>`: `none` stands for `nullptr`. -/
def peek (q : BQueue α) : Option α :=
  if q.cb.empty && q.overflow.isEmpty then none
  else if !q.cb.empty then q.cb.items.head? else q.overflow.head?

@[simp] theorem contents_new (n : Nat) : (new n : BQueue α).contents = [] := rfl

theorem isEmpty_eq (q : BQueue α) : q.isEmpty = q.contents.isEmpty := by
  rcases q with ⟨⟨n, _ | ⟨y, ys⟩, hn⟩, _ | ⟨z, zs⟩⟩ <;> rfl

theorem length_eq (q : BQueue α) : q.length = q.contents.length := by
  simp [length, contents]

/-- `push` appends: the ring takes the element only below capacity and with no overflow. -/
@[simp] theorem contents_push (q : BQueue α) (x : α) : (q.push x).contents = q.contents ++ [x] := by
  unfold push
  split
  · simp [contents]
  · rename_i h
    simp only [Bool.or_eq_true, Bool.not_eq_true', List.isEmpty_eq_false, not_or,
      Bool.not_eq_true] at h
    obtain ⟨ho, hf⟩ := h
    simp [contents, CircularBuffer.items_pushBack hf, List.isEmpty_iff.1 (by simpa using ho)]

theorem peek_eq (q : BQueue α) : q.peek = q.contents.head? := by
  rcases q with ⟨⟨n, _ | ⟨y, ys⟩, hn⟩, _ | ⟨z, zs⟩⟩ <;> rfl

/-- `pop` hands out the head of the contents and keeps the rest. -/
theorem contents_of_pop {q q' : BQueue α} {x : α} {last : Bool} (h : q.pop = some (x, last, q')) :
    q.contents = x :: q'.contents := by
  rcases q with ⟨⟨n, _ | ⟨y, ys⟩, hn⟩, _ | ⟨z, zs⟩⟩ <;> simp only [pop, reduceCtorEq,
    Option.some.injEq, Prod.mk.injEq] at h <;> obtain ⟨rfl, -, rfl⟩ := h <;> rfl

/-- A queue that holds something hands out its head and keeps the rest. -/
theorem pop_of_contents {q : BQueue α} {x : α} {l : List α} (h : q.contents = x :: l) :
    ∃ last q', q.pop = some (x, last, q') ∧ q'.contents = l := by
  rcases q with ⟨⟨n, _ | ⟨y, ys⟩, hn⟩, _ | ⟨z, zs⟩⟩ <;> simp only [contents, List.nil_append,
    List.cons_append, List.append_nil, List.cons.injEq, reduceCtorEq] at h <;>
    obtain ⟨rfl, rfl⟩ := h <;> exact ⟨_, _, rfl, by simp [contents, CircularBuffer.popFront]⟩

end BQueue

/-! ## Refinement of a FIFO list -/

/-- The operations of `Queue<T>`. -/
inductive QueueOp (α : Type) where
  | push (x : α)
  | pop
  | peek
  | length
  | isEmpty

/-- What each operation returns. -/
inductive QueueRet (α : Type) where
  | pushed
  | popped (x : α) (last : Bool)
  | peeked (x : Option α)
  | length (n : Nat)
  | isEmpty (b : Bool)
  deriving DecidableEq

namespace QueueOp

variable {α : Type}

/-- The element a `push` hands in. -/
def pushed? : QueueOp α → Option α
  | push x => some x
  | _ => none

/-- One operation on the unbounded FIFO list; a `pop` of the empty list blocks. -/
def fifo (l : List α) : QueueOp α → Option (QueueRet α × List α)
  | push x => some (.pushed, l ++ [x])
  | pop => match l with
    | [] => none
    | x :: r => some (.popped x r.isEmpty, r)
  | peek => some (.peeked l.head?, l)
  | length => some (.length l.length, l)
  | isEmpty => some (.isEmpty l.isEmpty, l)

/-- One operation on the `BQueue`. -/
def exec (q : BQueue α) : QueueOp α → Option (QueueRet α × BQueue α)
  | push x => some (.pushed, q.push x)
  | pop => q.pop.map fun (x, last, q') => (.popped x last, q')
  | peek => some (.peeked q.peek, q)
  | length => some (.length q.length, q)
  | isEmpty => some (.isEmpty q.isEmpty, q)

end QueueOp

namespace QueueRet

/-- The element a `pop` hands out. -/
def popped? {α : Type} : QueueRet α → Option α
  | popped x _ => some x
  | _ => none

end QueueRet

/-- Runs a sequence of operations; `none` when a `pop` would block. -/
def runOps {σ α : Type} (exec : σ → QueueOp α → Option (QueueRet α × σ)) :
    σ → List (QueueOp α) → Option (List (QueueRet α) × σ)
  | q, [] => some ([], q)
  | q, op :: ops => match exec q op with
    | none => none
    | some (r, q') => (runOps exec q' ops).map fun (rs, q'') => (r :: rs, q'')

namespace BQueue

variable {α : Type}

theorem exec_refines (q : BQueue α) (op : QueueOp α) :
    (QueueOp.exec q op).map (fun p => (p.1, p.2.contents)) = QueueOp.fifo q.contents op := by
  cases op with
  | push x => simp [QueueOp.exec, QueueOp.fifo]
  | pop =>
    unfold QueueOp.exec QueueOp.fifo pop
    rcases q with ⟨⟨n, _ | ⟨y, ys⟩, hn⟩, _ | ⟨z, zs⟩⟩ <;>
      simp [contents, isEmpty, CircularBuffer.empty, CircularBuffer.popFront]
  | peek => simp [QueueOp.exec, QueueOp.fifo, peek_eq]
  | length => simp [QueueOp.exec, QueueOp.fifo, length_eq]
  | isEmpty => simp [QueueOp.exec, QueueOp.fifo, isEmpty_eq]

/-- The queue refines the FIFO list over every sequence of operations, from every state. -/
theorem run_refines (q : BQueue α) (ops : List (QueueOp α)) :
    (runOps QueueOp.exec q ops).map (fun p => (p.1, p.2.contents)) =
      runOps QueueOp.fifo q.contents ops := by
  induction ops generalizing q with
  | nil => rfl
  | cons op ops ih =>
    have h := exec_refines q op
    simp only [runOps]
    rcases he : QueueOp.exec q op with _ | ⟨r, q'⟩ <;> rw [he] at h <;> simp only [Option.map] at h <;>
      rw [← h]
    · rfl
    · show Option.map _ (Option.map _ (runOps QueueOp.exec q' ops)) =
        Option.map _ (runOps QueueOp.fifo q'.contents ops)
      rw [← ih q']
      cases runOps QueueOp.exec q' ops <;> rfl

end BQueue

/-- On the FIFO list, what was popped followed by what is left is what was there followed by what
was pushed. -/
theorem fifo_run_conserves {α : Type} (l : List α) (ops : List (QueueOp α)) (rs : List (QueueRet α))
    (l' : List α) (h : runOps QueueOp.fifo l ops = some (rs, l')) :
    rs.filterMap QueueRet.popped? ++ l' = l ++ ops.filterMap QueueOp.pushed? := by
  induction ops generalizing l rs with
  | nil => cases h; simp
  | cons op ops ih =>
    unfold runOps at h
    cases op with
    | push x =>
      simp only [QueueOp.fifo, Option.map_eq_some'] at h
      obtain ⟨⟨rs', l''⟩, h', he⟩ := h
      cases he
      simpa [QueueRet.popped?, QueueOp.pushed?] using ih _ _ h'
    | pop =>
      cases l with
      | nil => simp [QueueOp.fifo] at h
      | cons y r =>
        simp only [QueueOp.fifo, Option.map_eq_some'] at h
        obtain ⟨⟨rs', l''⟩, h', he⟩ := h
        cases he
        simpa [QueueRet.popped?, QueueOp.pushed?] using ih _ _ h'
    | peek | length | isEmpty =>
      simp only [QueueOp.fifo, Option.map_eq_some'] at h
      obtain ⟨⟨rs', l''⟩, h', he⟩ := h
      cases he
      simpa [QueueRet.popped?, QueueOp.pushed?] using ih _ _ h'

/-- The mailbox refines an unbounded FIFO list whose value is `cb_ ++ overflow_`: from every
state, whatever the ring's capacity, every sequence of operations answers as on the list and ends
in the list's final value (a `pop` blocks exactly when the list is empty). From a new queue of any
capacity, what was popped followed by what is left is exactly what was pushed, so the popped
elements are a prefix of the pushed ones. -/
theorem bqueue_refines_fifo {α : Type} :
    (∀ (q : BQueue α) (ops : List (QueueOp α)),
      (runOps QueueOp.exec q ops).map (fun p => (p.1, p.2.contents)) =
        runOps QueueOp.fifo q.contents ops) ∧
    ∀ (n : Nat) (ops : List (QueueOp α)) (rs : List (QueueRet α)) (q : BQueue α),
      runOps QueueOp.exec (BQueue.new n) ops = some (rs, q) →
        rs.filterMap QueueRet.popped? ++ q.contents = ops.filterMap QueueOp.pushed? ∧
        rs.filterMap QueueRet.popped? <+: ops.filterMap QueueOp.pushed? := by
  refine ⟨BQueue.run_refines, fun n ops rs q h => ?_⟩
  have hf : runOps QueueOp.fifo [] ops = some (rs, q.contents) := by
    rw [← BQueue.contents_new n, ← BQueue.run_refines, h]; rfl
  have hc := fifo_run_conserves [] ops rs q.contents hf
  rw [List.nil_append] at hc
  exact ⟨hc, ⟨q.contents, hc⟩⟩

end Actors
