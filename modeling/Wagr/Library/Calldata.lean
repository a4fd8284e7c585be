import Wagr.Library.Bytes

/-!
# Words in call data

Call data is read in words of 32 bytes, most significant byte first, with zeros behind its end.
An array is stored as its length followed by its elements, one word each.
-/

namespace Calldata

/-- The word at a position (`calldataload`). -/
def load (data : List (BitVec 8)) (pos : ℕ) : ℕ :=
  Bytes.bigEndian ((data.drop pos ++ List.replicate 32 0).take 32)

/-- The array at a position, unless it is too long or does not fit into the data. -/
def loadArray (data : List (BitVec 8)) (pos : ℕ) : Option (List ℕ) :=
  let length := load data pos
  if data.length ≤ pos + 31 ∨ 2 ^ 64 ≤ length ∨ data.length < pos + 32 + length * 32 then none
  else some ((List.range length).map fun i => load data (pos + 32 + i * 32))

/-- One word for each number. -/
def words (ns : List ℕ) : List (BitVec 8) := ns.flatMap (Bytes.toBytes 32)

@[simp] theorem length_words (ns : List ℕ) : (words ns).length = 32 * ns.length := by
  induction ns with
  | nil => rfl
  | cons n ns ih =>
    have hcons : words (n :: ns) = Bytes.toBytes 32 n ++ words ns := rfl
    rw [hcons, List.length_append, Bytes.length_toBytes, ih, List.length_cons]
    omega

/-- A number put into the data is loaded again. -/
theorem load_word (front back : List (BitVec 8)) {n : ℕ} (hn : n < 2 ^ 256) :
    load (front ++ (Bytes.toBytes 32 n ++ back)) front.length = n := by
  have hword : ((Bytes.toBytes 32 n ++ back) ++ List.replicate 32 0).take 32 =
      Bytes.toBytes 32 n := by
    rw [List.append_assoc]
    exact List.take_left' (Bytes.length_toBytes 32 n)
  rw [load, List.drop_left, hword, Bytes.bigEndian_toBytes]
  exact Nat.mod_eq_of_lt hn

/-- The words put into the data are loaded again. -/
theorem load_words (front back : List (BitVec 8)) {ns : List ℕ} (hns : ∀ n ∈ ns, n < 2 ^ 256) :
    (List.range ns.length).map (fun i => load (front ++ (words ns ++ back)) (front.length + i * 32))
      = ns := by
  induction ns generalizing front with
  | nil => rfl
  | cons n ns ih =>
    have hcons : front ++ (words (n :: ns) ++ back) =
        front ++ (Bytes.toBytes 32 n ++ (words ns ++ back)) := by
      simp [words]
    have hsplit : front ++ (words (n :: ns) ++ back) =
        (front ++ Bytes.toBytes 32 n) ++ (words ns ++ back) := by
      simp [words]
    rw [List.length_cons, List.range_succ_eq_map, List.map_cons, List.map_map]
    refine congrArg₂ List.cons ?_ ?_
    · rw [hcons, Nat.zero_mul, Nat.add_zero]
      exact load_word front _ (hns n List.mem_cons_self)
    · refine Eq.trans ?_ (ih (front ++ Bytes.toBytes 32 n) fun m hm =>
        hns m (List.mem_cons_of_mem _ hm))
      refine List.map_congr_left fun i _ => ?_
      have hpos : front.length + (i + 1) * 32 = (front ++ Bytes.toBytes 32 n).length + i * 32 := by
        rw [List.length_append, Bytes.length_toBytes]
        omega
      rw [Function.comp_apply, hsplit, Nat.succ_eq_add_one, hpos]

/-- A number in the data is loaded. -/
theorem load_eq {data front back : List (BitVec 8)} {n pos : ℕ}
    (hdata : data = front ++ (Bytes.toBytes 32 n ++ back)) (hpos : front.length = pos)
    (hn : n < 2 ^ 256) : load data pos = n := by
  subst hdata hpos
  exact load_word front back hn

/-- An array in the data is loaded. -/
theorem loadArray_eq {data front back : List (BitVec 8)} {ns : List ℕ} {pos : ℕ}
    (hdata : data = front ++ (Bytes.toBytes 32 ns.length ++ (words ns ++ back)))
    (hpos : front.length = pos) (hlength : ns.length < 2 ^ 64) (hns : ∀ n ∈ ns, n < 2 ^ 256) :
    loadArray data pos = some ns := by
  have hload : load data pos = ns.length := load_eq hdata hpos (hlength.trans (by decide))
  have hsize : data.length = pos + 32 + 32 * ns.length + back.length := by
    simp only [hdata, List.length_append, Bytes.length_toBytes, length_words, hpos]
    omega
  have helements := load_words (front ++ Bytes.toBytes 32 ns.length) back hns
  rw [List.length_append, Bytes.length_toBytes, List.append_assoc, ← hdata, hpos] at helements
  unfold loadArray
  simp only [hload, hsize, helements]
  rw [if_neg (by omega)]

end Calldata
