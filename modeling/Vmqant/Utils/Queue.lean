import Vmqant.Common.Panic
import Vmqant.Common.RingBuffer

/-!
# The queue

Reference: `utils/queue.go`.

The head, the tail and the count are numbers that are never negative, and the mask is `len(q.buf) - 1`, which
reduces modulo the length as long as that is a power of two.
-/

namespace Vmqant.Mqanttools

variable {α : Type} [Inhabited α]

def minQueueLen : ℕ := 16

/-- `Queue`. The default value of `α` is `nil`, which the buffer is filled with. -/
structure Queue (α : Type) where
  buf : List α
  head : ℕ
  tail : ℕ
  count : ℕ

/-- `NewQueue`. -/
def newQueue : Queue α := ⟨List.replicate minQueueLen default, 0, 0, 0⟩

namespace Queue

def length (q : Queue α) : ℕ := q.count

/-- `resize`. The fields are set at its end. -/
def resize (q : Queue α) : Except PanicValue (Queue α) := do
  let newBuf := List.replicate (q.count <<< 1) default
  let newBuf ←
    if q.tail > q.head then do
      pure (Slice.copy newBuf (← Slice.slice q.buf q.head q.tail))
    else do
      let back ← Slice.sliceFrom q.buf q.head
      let n := min newBuf.length back.length
      let newBuf := Slice.copy newBuf back
      let front ← Slice.slice q.buf 0 q.tail
      pure (newBuf.take n ++ Slice.copy (newBuf.drop n) front)
  pure ⟨newBuf, 0, q.count, q.count⟩

def add (elem : α) : Prog (Queue α) Unit := fun q =>
  match if q.count = q.buf.length then resize q else .ok q with
  | .error v => (.error v, q)
  | .ok q =>
    match Slice.set q.buf q.tail elem with
    | .error v => (.error v, q)
    | .ok buf =>
      (.ok (), { q with buf := buf, tail := (q.tail + 1) &&& (buf.length - 1), count := q.count + 1 })

def peek : Prog (Queue α) α := fun q =>
  if q.count ≤ 0 then (.error (.string "queue: Peek() called on empty queue"), q)
  else (Slice.index q.buf q.head, q)

def get (i : ℤ) : Prog (Queue α) α := fun q =>
  let i := if i < 0 then i + q.count else i
  if i < 0 ∨ i ≥ q.count then (.error (.string "queue: Get() called with index out of range"), q)
  else (Slice.index q.buf ((q.head + i.toNat) &&& (q.buf.length - 1)), q)

def remove : Prog (Queue α) α := fun q =>
  if q.count ≤ 0 then (.error (.string "queue: Remove() called on empty queue"), q)
  else
    match Slice.index q.buf q.head, Slice.set q.buf q.head default with
    | .error v, _ => (.error v, q)
    | _, .error v => (.error v, q)
    | .ok ret, .ok buf =>
      let q := { q with buf := buf, head := (q.head + 1) &&& (buf.length - 1), count := q.count - 1 }
      if q.buf.length > minQueueLen ∧ q.count <<< 2 = q.buf.length then
        match resize q with
        | .error v => (.error v, q)
        | .ok q => (.ok ret, q)
      else (.ok ret, q)

/-! ## What represents a list -/

/-- The queue holds the list. -/
structure Represents (q : Queue α) (l : List α) : Prop where
  pow : ∃ k ≥ 4, q.buf.length = 2 ^ k
  head_lt : q.head < q.buf.length
  tail_eq : q.tail = (q.head + l.length) % q.buf.length
  count_eq : q.count = l.length
  holds : Ring.Holds q.buf q.head l

variable {q : Queue α} {l : List α}

omit [Inhabited α] in
/-- The mask reduces modulo the length. -/
theorem Represents.and_mask (h : Represents q l) (n : ℕ) : n &&& (q.buf.length - 1) = n % q.buf.length := by
  obtain ⟨k, -, hk⟩ := h.pow
  rw [hk, Nat.and_two_pow_sub_one_eq_mod]

theorem represents_newQueue : Represents (newQueue : Queue α) [] where
  pow := ⟨4, le_refl 4, List.length_replicate⟩
  head_lt := by
    show 0 < (List.replicate 16 (default : α)).length
    rw [List.length_replicate]
    omega
  tail_eq := (Nat.zero_mod _).symm
  count_eq := rfl
  holds := Ring.holds_nil _ _

omit [Inhabited α] in
/-- Where the tail is not behind the head, the list does not reach the end, and else it goes around it. -/
theorem Represents.tail_cases (h : Represents q l) (hpos : 0 < l.length) :
    (q.head < q.tail ∧ q.tail = q.head + l.length ∧ q.head + l.length < q.buf.length) ∨
      (q.tail ≤ q.head ∧ q.tail + q.buf.length = q.head + l.length) := by
  have hhead := h.head_lt
  have hle := h.holds.length_le
  have htail := h.tail_eq
  by_cases hin : q.head + l.length < q.buf.length
  · rw [Nat.mod_eq_of_lt hin] at htail
    exact .inl ⟨by omega, htail, hin⟩
  · rw [Nat.mod_eq_sub_mod (by omega), Nat.mod_eq_of_lt (by omega)] at htail
    exact .inr ⟨by omega, by omega⟩

/-- A slice that is not longer is copied whole. -/
theorem copy_replicate (n : ℕ) (src : List α) (h : src.length ≤ n) :
    Slice.copy (List.replicate n default) src = src ++ List.replicate (n - src.length) default := by
  rw [Slice.copy, List.length_replicate, List.take_of_length_le h, List.drop_replicate]

/-- `resize` moves the list to the start of a buffer of twice its length. -/
theorem resize_eq (h : Represents q l) (hpos : 0 < l.length) :
    resize q = .ok ⟨l ++ List.replicate l.length default, 0, l.length, l.length⟩ := by
  have hhead := h.head_lt
  have hshift : l.length <<< 1 = 2 * l.length := by rw [Nat.shiftLeft_eq]; omega
  rcases h.tail_cases hpos with ⟨hlt, htail, hin⟩ | ⟨hge, htail⟩
  · have hslice : Slice.slice q.buf q.head q.tail = .ok l := by
      rw [Slice.slice, if_neg (by omega), if_neg (by omega), List.drop_take, htail, Nat.add_sub_cancel_left]
      exact congrArg Except.ok (h.holds.eq_take (by omega)).symm
    have hcopy := copy_replicate (2 * l.length) l (by omega)
    unfold resize
    rw [h.count_eq, hshift, if_pos hlt, hslice]
    show Except.ok _ = _
    rw [hcopy, show 2 * l.length - l.length = l.length by omega]
  · have hback : Slice.sliceFrom q.buf q.head = .ok (q.buf.drop q.head) := if_pos (by omega)
    have hfront : Slice.slice q.buf 0 q.tail = .ok (q.buf.take q.tail) := by
      rw [Slice.slice, if_neg (by omega), if_neg (by omega), List.drop_zero]
    have hlength : (q.buf.drop q.head).length = q.buf.length - q.head := List.length_drop
    have hl : l = q.buf.drop q.head ++ q.buf.take q.tail := by
      have happend := h.holds.eq_append (by omega) (by omega)
      rwa [show q.head + l.length - q.buf.length = q.tail by omega] at happend
    have hcopy := copy_replicate (2 * l.length) (q.buf.drop q.head) (by omega)
    have hcopy' := copy_replicate (2 * l.length - (q.buf.length - q.head)) (q.buf.take q.tail)
      (by rw [List.length_take]; omega)
    unfold resize
    rw [h.count_eq, hshift, if_neg (by omega), hback]
    show (Slice.slice q.buf 0 q.tail >>= _) = _
    rw [hfront]
    show Except.ok _ = _
    have hmin : min (2 * l.length) (q.buf.length - q.head) = q.buf.length - q.head := by omega
    have hrest : 2 * l.length - (q.buf.length - q.head) - (q.buf.take q.tail).length = l.length := by
      rw [List.length_take]
      omega
    rw [hcopy, List.length_replicate, hlength, hmin, List.take_left' hlength, List.drop_left' hlength, hcopy',
      hrest, ← List.append_assoc, ← hl]

theorem represents_resized (hpow : ∃ k ≥ 4, 2 * l.length = 2 ^ k) :
    Represents ⟨l ++ List.replicate l.length default, 0, l.length, l.length⟩ l := by
  obtain ⟨k, hk, hlength⟩ := hpow
  have hpos : 0 < 2 ^ k := Nat.two_pow_pos k
  have hbuf : (l ++ List.replicate l.length default).length = 2 * l.length := by
    rw [List.length_append, List.length_replicate]
    omega
  refine ⟨⟨k, hk, hbuf.trans hlength⟩, ?_, ?_, rfl, Ring.holds_append l _⟩
  · show 0 < (l ++ List.replicate l.length default).length
    omega
  · show l.length = (0 + l.length) % (l ++ List.replicate l.length default).length
    rw [hbuf, Nat.zero_add, Nat.mod_eq_of_lt (by omega)]

/-! ## The methods -/

omit [Inhabited α] in
theorem Represents.count_le (h : Represents q l) : l.length ≤ q.buf.length := h.holds.length_le

/-- `Add` makes room first, where there is none. -/
theorem exists_room (h : Represents q l) :
    ∃ q', (if q.count = q.buf.length then resize q else .ok q) = .ok q' ∧ Represents q' l ∧
      l.length < q'.buf.length := by
  have hle := h.count_le
  have hhead := h.head_lt
  obtain ⟨k, hk, hpow⟩ := h.pow
  by_cases hfull : q.count = q.buf.length
  · have hlength : l.length = q.buf.length := h.count_eq.symm.trans hfull
    have hpos : 0 < l.length := by omega
    refine ⟨_, (if_pos hfull).trans (resize_eq h hpos), represents_resized ⟨k + 1, by omega, ?_⟩, ?_⟩
    · rw [Nat.pow_succ, hlength, hpow, Nat.mul_comm]
    · show l.length < (l ++ List.replicate l.length default).length
      rw [List.length_append, List.length_replicate]
      omega
  · refine ⟨q, if_neg hfull, h, ?_⟩
    rw [h.count_eq] at hfull
    omega

theorem add_spec (h : Represents q l) (a : α) : ∃ q', add a q = (.ok (), q') ∧ Represents q' (l ++ [a]) := by
  obtain ⟨q', hroom, h', hlt⟩ := exists_room h
  have htail : q'.tail < q'.buf.length := by
    rw [h'.tail_eq]
    exact Nat.mod_lt _ (by omega)
  have hset : Slice.set q'.buf q'.tail a = .ok (q'.buf.set q'.tail a) := if_pos htail
  refine ⟨⟨q'.buf.set q'.tail a, q'.head, (q'.tail + 1) % q'.buf.length, q'.count + 1⟩, ?_, ?_⟩
  · unfold add
    rw [hroom]
    dsimp only
    rw [hset]
    dsimp only
    rw [List.length_set, h'.and_mask]
  · refine ⟨?_, ?_, ?_, ?_, ?_⟩
    · obtain ⟨k, hk, hpow⟩ := h'.pow
      exact ⟨k, hk, List.length_set.trans hpow⟩
    · exact h'.head_lt.trans_eq List.length_set.symm
    · show (q'.tail + 1) % q'.buf.length = (q'.head + (l ++ [a]).length) % (q'.buf.set q'.tail a).length
      rw [List.length_set, List.length_append, List.length_singleton, h'.tail_eq, Nat.mod_add_mod, Nat.add_assoc]
    · show q'.count + 1 = (l ++ [a]).length
      rw [h'.count_eq, List.length_append, List.length_singleton]
    · have hpush := h'.holds.push hlt a
      rwa [← h'.tail_eq] at hpush

omit [Inhabited α] in
theorem peek_nil (h : Represents q []) :
    peek q = (.error (.string "queue: Peek() called on empty queue"), q) := by
  have hcount : q.count ≤ 0 := h.count_eq.le
  exact if_pos hcount

omit [Inhabited α] in
theorem index_head {a : α} (h : Represents q (a :: l)) : Slice.index q.buf q.head = .ok a := by
  rw [Slice.index, h.holds.getElem?_head h.head_lt]

omit [Inhabited α] in
theorem peek_cons {a : α} (h : Represents q (a :: l)) : peek q = (.ok a, q) := by
  have hcount : ¬ q.count ≤ 0 := by
    rw [h.count_eq, List.length_cons]
    omega
  unfold peek
  rw [if_neg hcount, index_head h]

theorem remove_nil (h : Represents q []) :
    remove q = (.error (.string "queue: Remove() called on empty queue"), q) := by
  have hcount : q.count ≤ 0 := h.count_eq.le
  exact if_pos hcount

/-- What is left after the first element is taken out. -/
theorem represents_popped {a : α} (h : Represents q (a :: l)) :
    Represents ⟨q.buf.set q.head default, (q.head + 1) % q.buf.length, q.tail, q.count - 1⟩ l := by
  have hhead := h.head_lt
  refine ⟨?_, ?_, ?_, ?_, h.holds.pop hhead default⟩
  · obtain ⟨k, hk, hpow⟩ := h.pow
    exact ⟨k, hk, List.length_set.trans hpow⟩
  · show (q.head + 1) % q.buf.length < (q.buf.set q.head default).length
    rw [List.length_set]
    exact Nat.mod_lt _ (by omega)
  · show q.tail = ((q.head + 1) % q.buf.length + l.length) % (q.buf.set q.head default).length
    rw [List.length_set, Nat.mod_add_mod, h.tail_eq, List.length_cons, Nat.add_assoc, Nat.add_comm 1]
  · show q.count - 1 = l.length
    rw [h.count_eq, List.length_cons, Nat.add_sub_cancel]

/-- A buffer of which a quarter is used is halved, and it is not shorter than the shortest one. -/
theorem represents_shrunk (h : Represents q l) (hlong : q.buf.length > minQueueLen)
    (hquarter : q.count <<< 2 = q.buf.length) : ∃ q', resize q = .ok q' ∧ Represents q' l := by
  obtain ⟨k, hk, hpow⟩ := h.pow
  rw [h.count_eq, Nat.shiftLeft_eq] at hquarter
  unfold minQueueLen at hlong
  have hpos : 0 < l.length := by omega
  obtain ⟨j, rfl⟩ : ∃ j, k = j + 1 := ⟨k - 1, by omega⟩
  rw [Nat.pow_succ] at hpow
  have hj : 4 ≤ j := by
    by_contra hlt
    have hsmall : 2 ^ j ≤ 2 ^ 3 := Nat.pow_le_pow_right (by omega) (by omega)
    omega
  exact ⟨_, resize_eq h hpos, represents_resized ⟨j, hj, by omega⟩⟩

theorem remove_cons {a : α} (h : Represents q (a :: l)) : ∃ q', remove q = (.ok a, q') ∧ Represents q' l := by
  have hcount : ¬ q.count ≤ 0 := by
    rw [h.count_eq, List.length_cons]
    omega
  have hset : Slice.set q.buf q.head default = .ok (q.buf.set q.head default) := if_pos h.head_lt
  have hpopped := represents_popped h
  unfold remove
  rw [if_neg hcount, index_head h, hset]
  dsimp only
  rw [List.length_set, h.and_mask]
  split
  · next hshrink =>
    obtain ⟨q', hresize, h'⟩ := represents_shrunk hpopped (hshrink.1.trans_eq List.length_set.symm)
      (hshrink.2.trans List.length_set.symm)
    rw [hresize]
    exact ⟨q', rfl, h'⟩
  · exact ⟨_, rfl, hpopped⟩

end Queue

/-! ## The list -/

/-- The element at a place from the front, or for a negative number from the back. -/
def nth (l : List α) (i : ℤ) : Option α := if 0 ≤ i then l[i.toNat]? else l.reverse[(-i - 1).toNat]?

inductive QueueOp (α : Type) where
  | add (elem : α)
  | remove
  | peek
  | get (i : ℤ)

/-- A call of a method of the queue; `Add` returns nothing. -/
def Queue.step : QueueOp α → Prog (Queue α) (Option α)
  | .add elem => do
    Queue.add elem
    pure none
  | .remove => do pure (some (← Queue.remove))
  | .peek => do pure (some (← Queue.peek))
  | .get i => do pure (some (← Queue.get i))

/-- What the same call does to a list. -/
def listStep : QueueOp α → Prog (List α) (Option α)
  | .add elem, l => (.ok none, l ++ [elem])
  | .remove, [] => (.error (.string "queue: Remove() called on empty queue"), [])
  | .remove, a :: l => (.ok (some a), l)
  | .peek, [] => (.error (.string "queue: Peek() called on empty queue"), [])
  | .peek, a :: l => (.ok (some a), a :: l)
  | .get i, l =>
    match nth l i with
    | some a => (.ok (some a), l)
    | none => (.error (.string "queue: Get() called with index out of range"), l)

variable {q : Queue α} {l : List α}

omit [Inhabited α] in
/-- A negative number is counted from the length. -/
theorem nth_eq (l : List α) (i : ℤ) :
    nth l i =
      if (if i < 0 then i + l.length else i) < 0 ∨ (if i < 0 then i + l.length else i) ≥ l.length then none
      else l[(if i < 0 then i + l.length else i).toNat]? := by
  unfold nth
  by_cases hneg : i < 0
  · rw [if_neg (by omega), if_pos hneg]
    split
    · next hout => exact List.getElem?_eq_none (by rw [List.length_reverse]; omega)
    · next hin =>
      rw [List.getElem?_reverse (by omega)]
      congr 1
      omega
  · rw [if_pos (by omega), if_neg hneg]
    split
    · next hout => exact List.getElem?_eq_none (by omega)
    · rfl

omit [Inhabited α] in
theorem get_spec (h : q.Represents l) (i : ℤ) :
    q.get i = (match nth l i with
      | some a => .ok a
      | none => .error (.string "queue: Get() called with index out of range"), q) := by
  unfold Queue.get
  dsimp only
  rw [h.count_eq, nth_eq, h.and_mask]
  generalize (if i < 0 then i + (l.length : ℤ) else i) = j
  split
  · rfl
  · next hin =>
    have hlt : j.toNat < l.length := by omega
    rw [Slice.index, h.holds.getElem? hlt, List.getElem?_eq_getElem hlt]

omit [Inhabited α] in
theorem bind_some (x : Prog (Queue α) α) (q : Queue α) :
    (do pure (some (← x)) : Prog (Queue α) (Option α)) q = ((x q).1.map some, (x q).2) := by
  cases hx : (x q).1 with
  | ok a => exact Prog.bind_of_ok hx
  | error v => exact Prog.bind_of_error hx

/-- Each call has the result that it has on the list. -/
theorem step_spec (op : QueueOp α) (q : Queue α) (l : List α) (h : q.Represents l) :
    (Queue.step op q).1 = (listStep op l).1 ∧ (Queue.step op q).2.Represents (listStep op l).2 := by
  cases op with
  | add elem =>
    obtain ⟨q', hadd, h'⟩ := Queue.add_spec h elem
    have hresult : (Queue.add elem q).1 = .ok () := congrArg Prod.fst hadd
    have hstep : Queue.step (.add elem) q = (.ok none, (Queue.add elem q).2) := Prog.bind_of_ok hresult
    rw [hstep, hadd]
    exact ⟨rfl, h'⟩
  | remove =>
    rw [show Queue.step .remove q = _ from bind_some Queue.remove q]
    cases l with
    | nil =>
      rw [Queue.remove_nil h]
      exact ⟨rfl, h⟩
    | cons a l =>
      obtain ⟨q', hremove, h'⟩ := Queue.remove_cons h
      rw [hremove]
      exact ⟨rfl, h'⟩
  | peek =>
    rw [show Queue.step .peek q = _ from bind_some Queue.peek q]
    cases l with
    | nil =>
      rw [Queue.peek_nil h]
      exact ⟨rfl, h⟩
    | cons a l =>
      rw [Queue.peek_cons h]
      exact ⟨rfl, h⟩
  | get i =>
    rw [show Queue.step (.get i) q = _ from bind_some (Queue.get i) q, get_spec h i]
    cases hnth : nth l i with
    | none =>
      have hlist : listStep (.get i) l =
          (.error (.string "queue: Get() called with index out of range"), l) := by
        simp only [listStep, hnth]
      rw [hlist]
      exact ⟨rfl, h⟩
    | some a =>
      have hlist : listStep (.get i) l = (.ok (some a), l) := by
        simp only [listStep, hnth]
      rw [hlist]
      exact ⟨rfl, h⟩

/-- **The queue is a list**: all sequences of calls have the results that they have on the list, the queue has
as many elements, and its buffer has a power of two of places, of which there are at least 16. -/
theorem queue_refines (ops : List (QueueOp α)) :
    (Prog.runs Queue.step ops newQueue).1 = (Prog.runs listStep ops []).1 ∧
      (Prog.runs Queue.step ops newQueue).2.length = (Prog.runs listStep ops []).2.length ∧
      (∃ k, (Prog.runs Queue.step ops newQueue).2.buf.length = 2 ^ k) ∧
      16 ≤ (Prog.runs Queue.step ops newQueue).2.buf.length ∧
      (Prog.runs Queue.step ops newQueue).2.Represents (Prog.runs listStep ops []).2 := by
  obtain ⟨hresults, h⟩ := Prog.runs_simulates (R := Queue.Represents) step_spec ops Queue.represents_newQueue
  obtain ⟨k, hk, hpow⟩ := h.pow
  refine ⟨hresults, h.count_eq, ⟨k, hpow⟩, ?_, h⟩
  rw [hpow]
  exact Nat.pow_le_pow_right (n := 2) (by omega) hk

end Vmqant.Mqanttools
