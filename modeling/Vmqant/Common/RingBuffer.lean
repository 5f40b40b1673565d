import Mathlib

/-!
# Ring buffers

A list in a buffer, from a place on and around the end of the buffer: a prefix of the buffer rotated to that
place. Adding at the back, removing at the front and moving the list to another buffer are the same on the
list and on the buffer.
-/

namespace Ring

variable {α : Type*} {buf l : List α} {head : ℕ} {a : α}

/-- The list stands in the buffer from `head` on. -/
def Holds (buf : List α) (head : ℕ) (l : List α) : Prop := l <+: buf.rotate head

theorem holds_iff :
    Holds buf head l ↔
      l.length ≤ buf.length ∧ ∀ i < l.length, buf[(head + i) % buf.length]? = l[i]? := by
  have hget : ∀ i < buf.length, (buf.rotate head)[i]? = buf[(head + i) % buf.length]? := by
    intro i hi
    rw [List.getElem?_rotate hi, Nat.add_comm]
  unfold Holds
  constructor
  · intro h
    have hle : l.length ≤ buf.length := by simpa using h.length_le
    refine ⟨hle, fun i hi => ?_⟩
    rw [← hget i (by omega), List.getElem?_eq_getElem hi]
    exact List.prefix_iff_getElem?.mp h i hi
  · rintro ⟨hle, h⟩
    rw [List.prefix_iff_getElem?]
    intro i hi
    rw [hget i (by omega), h i hi, List.getElem?_eq_getElem hi]

theorem Holds.length_le (h : Holds buf head l) : l.length ≤ buf.length := (holds_iff.mp h).1

theorem Holds.getElem? (h : Holds buf head l) {i : ℕ} (hi : i < l.length) :
    buf[(head + i) % buf.length]? = l[i]? := (holds_iff.mp h).2 i hi

/-- The list stands in order where it does not reach the end. -/
theorem Holds.eq_take (h : Holds buf head l) (hin : head + l.length ≤ buf.length) :
    l = (buf.drop head).take l.length := by
  have hstarts := List.prefix_iff_eq_take.mp h
  rw [List.rotate_eq_drop_append_take (by omega), List.take_append_of_le_length] at hstarts
  · exact hstarts
  · rw [List.length_drop]
    omega

/-- Else it goes on at the start. -/
theorem Holds.eq_append (h : Holds buf head l) (hhead : head ≤ buf.length)
    (hover : buf.length ≤ head + l.length) :
    l = buf.drop head ++ buf.take (head + l.length - buf.length) := by
  have hle := h.length_le
  have hstarts := List.prefix_iff_eq_take.mp h
  rw [List.rotate_eq_drop_append_take hhead, List.take_append, List.take_of_length_le, List.length_drop,
    List.take_take] at hstarts
  · rwa [show min (l.length - (buf.length - head)) head = head + l.length - buf.length by omega] at hstarts
  · rw [List.length_drop]
    omega

theorem holds_nil (buf : List α) (head : ℕ) : Holds buf head [] := List.nil_prefix

/-- A list at the start of a buffer. -/
theorem holds_append (l rest : List α) : Holds (l ++ rest) 0 l := by
  unfold Holds
  rw [List.rotate_zero]
  exact List.prefix_append l rest

/-- Different places of a list stand in different places of the buffer. -/
theorem place_inj {n i j : ℕ} (hi : i < n) (hj : j < n) (h : (head + i) % n = (head + j) % n) : i = j := by
  have hequiv : i ≡ j [MOD n] := Nat.ModEq.add_left_cancel' head h
  exact hequiv.eq_of_lt_of_lt hi hj

/-- An element is added behind the last one. -/
theorem Holds.push (h : Holds buf head l) (hroom : l.length < buf.length) (a : α) :
    Holds (buf.set ((head + l.length) % buf.length) a) head (l ++ [a]) := by
  have hplace : (head + l.length) % buf.length < buf.length := Nat.mod_lt _ (by omega)
  rw [holds_iff, List.length_set, List.length_append, List.length_singleton]
  refine ⟨hroom, fun i hi => ?_⟩
  by_cases hlast : i = l.length
  · rw [hlast, List.getElem?_set_self hplace, List.getElem?_concat_length]
  · have hi' : i < l.length := by omega
    have hne : (head + l.length) % buf.length ≠ (head + i) % buf.length := fun heq =>
      hlast (place_inj hroom (by omega) heq).symm
    rw [List.getElem?_set_ne hne, List.getElem?_append_left hi', h.getElem? hi']

theorem Holds.getElem?_head (h : Holds buf head (a :: l)) (hhead : head < buf.length) :
    buf[head]? = some a := by
  have hfirst := h.getElem? (i := 0) (by simp)
  rwa [Nat.add_zero, Nat.mod_eq_of_lt hhead] at hfirst

/-- The first element is removed, and its place gets another value. -/
theorem Holds.pop (h : Holds buf head (a :: l)) (hhead : head < buf.length) (b : α) :
    Holds (buf.set head b) ((head + 1) % buf.length) l := by
  obtain ⟨hle, hget⟩ := holds_iff.mp h
  rw [List.length_cons] at hle
  rw [holds_iff, List.length_set]
  refine ⟨by omega, fun i hi => ?_⟩
  have hplace : ((head + 1) % buf.length + i) % buf.length = (head + (i + 1)) % buf.length := by
    rw [Nat.mod_add_mod, Nat.add_assoc, Nat.add_comm 1 i]
  have hne : head ≠ (head + (i + 1)) % buf.length := by
    intro heq
    have hzero : (head + 0) % buf.length = (head + (i + 1)) % buf.length := by
      rwa [Nat.add_zero, Nat.mod_eq_of_lt hhead]
    exact absurd (place_inj (by omega) (by omega) hzero) (by omega)
  rw [hplace, List.getElem?_set_ne hne]
  exact hget (i + 1) (by rw [List.length_cons]; omega)

end Ring
