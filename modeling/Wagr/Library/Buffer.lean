import Mathlib.Data.List.Basic

/-!
# Filling a buffer at a cursor

A buffer of fixed length is written front to back: each item goes into a slot of the same size at
the cursor, which then moves on. `Fills` says what writing one item does to a buffer that is blank
behind the cursor, and the loop over a list of items then leaves their slots behind each other.
-/

namespace Buffer

variable {B α ε : Type}

/-- The buffer with as many of the elements put at a position as fit there. -/
def overwrite (buf : List B) (pos : ℕ) (src : List B) : List B :=
  buf.take pos ++ (src ++ buf.drop (pos + src.length)).take (buf.length - pos)

/-- Elements that fit are put into the blank rest of a buffer. -/
theorem overwrite_blank (written : List B) (blank : B) {src : List B} {skip rest : ℕ}
    (hfits : skip + src.length ≤ rest) :
    overwrite (written ++ List.replicate rest blank) (written.length + skip) src =
      written ++ ((List.replicate skip blank ++ src) ++
        List.replicate (rest - (skip + src.length)) blank) := by
  have hbefore : (written ++ List.replicate rest blank).take (written.length + skip) =
      written ++ List.replicate skip blank := by
    rw [List.take_append, List.take_of_length_le (by omega), List.take_replicate]
    congr 2
    omega
  have hbehind : (written ++ List.replicate rest blank).drop (written.length + skip + src.length) =
      List.replicate (rest - (skip + src.length)) blank := by
    rw [List.drop_append, List.drop_eq_nil_of_le (by omega), List.nil_append, List.drop_replicate]
    congr 1
    omega
  have hlength : (src ++ List.replicate (rest - (skip + src.length)) blank).length ≤
      (written ++ List.replicate rest blank).length - (written.length + skip) := by
    simp only [List.length_append, List.length_replicate]
    omega
  rw [overwrite, hbefore, hbehind, List.take_of_length_le hlength, List.append_assoc,
    List.append_assoc]

/-- Writing an item where the buffer is blank puts its slot there. -/
def Fills (put : List B → ℕ → α → Except ε (List B)) (slot : α → List B) (size : ℕ) (blank : B) :
    Prop :=
  ∀ written rest x, size ≤ rest →
    put (written ++ List.replicate rest blank) written.length x =
      .ok (written ++ (slot x ++ List.replicate (rest - size) blank))

/-- Write the items one after the other; the cursor moves on by `size` for each. -/
def fill (put : List B → ℕ → α → Except ε (List B)) (size : ℕ) (xs : List α) (buf : List B)
    (pos : ℕ) : Except ε (List B × ℕ) :=
  xs.foldlM (fun (cursor : List B × ℕ) x => do
    let buf ← put cursor.1 cursor.2 x
    return (buf, cursor.2 + size)) (buf, pos)

variable {put : List B → ℕ → α → Except ε (List B)} {slot : α → List B} {size : ℕ} {blank : B}
  {written : List B} {rest : ℕ}

/-- The first item of the loop. -/
theorem fill_cons {x : α} {xs : List α} {buf : List B} {pos : ℕ} :
    fill put size (x :: xs) buf pos =
      (put buf pos x >>= fun buf => fill put size xs buf (pos + size)) := by
  unfold fill
  rw [List.foldlM_cons]
  cases put buf pos x with
  | ok buf => rfl
  | error e => rfl

/-- The slots of the items are behind each other, and the cursor is behind them. -/
theorem Fills.fill (h : Fills put slot size blank) (hslot : ∀ x, (slot x).length = size)
    (xs : List α) (written : List B) {rest : ℕ} (hrest : size * xs.length ≤ rest) :
    Buffer.fill put size xs (written ++ List.replicate rest blank) written.length =
      .ok ((written ++ xs.flatMap slot) ++ List.replicate (rest - size * xs.length) blank,
        (written ++ xs.flatMap slot).length) := by
  induction xs generalizing written rest with
  | nil => simp [Buffer.fill, pure, Except.pure]
  | cons x xs ih =>
    rw [List.length_cons, Nat.mul_add, Nat.mul_one] at hrest
    have hput := h written rest x (by omega)
    have hcursor : (written ++ slot x).length = written.length + size := by
      rw [List.length_append, hslot]
    have hrest' : size * xs.length ≤ rest - size := by omega
    have hfill := ih (written ++ slot x) hrest'
    rw [hcursor, List.append_assoc] at hfill
    have hleft : rest - size - size * xs.length = rest - (size * xs.length + size) := by omega
    have hsplit : written ++ (x :: xs).flatMap slot = (written ++ slot x) ++ xs.flatMap slot := by
      rw [List.flatMap_cons, List.append_assoc]
    rw [fill_cons, hput, hsplit, List.length_cons, Nat.mul_add, Nat.mul_one, ← hleft]
    exact hfill

/-- The loop fails at the first item that finds no room. -/
theorem Fills.fill_error (h : Fills put slot size blank) (hslot : ∀ x, (slot x).length = size)
    {err : ε} (hfull : ∀ (buf : List B) x, put buf buf.length x = .error err) {room : ℕ}
    (xs : List α) (written : List B) (hmore : room < xs.length) :
    Buffer.fill put size xs (written ++ List.replicate (size * room) blank) written.length =
      .error err := by
  induction xs generalizing written room with
  | nil => cases hmore
  | cons x xs ih =>
    rw [fill_cons]
    rcases room with _ | room
    · rw [Nat.mul_zero, List.replicate_zero, List.append_nil, hfull]
      rfl
    · have hput := h written (size * (room + 1)) x (Nat.le_mul_of_pos_right size (by omega))
      have hroom : size * (room + 1) - size = size * room := by
        rw [Nat.mul_add, Nat.mul_one, Nat.add_sub_cancel]
      have hcursor : (written ++ slot x).length = written.length + size := by
        rw [List.length_append, hslot]
      have hmore' : room < xs.length := by
        rw [List.length_cons] at hmore
        omega
      have hrest := ih (written ++ slot x) hmore'
      rw [hcursor, List.append_assoc] at hrest
      rw [hput, hroom]
      exact hrest

end Buffer
