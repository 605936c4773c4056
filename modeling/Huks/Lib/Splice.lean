import Mathlib.Data.List.TakeDrop

namespace Huks

variable {α : Type}

-- The `n` elements behind the first `i`.
def slice (l : List α) (i n : Nat) : List α := (l.drop i).take n

-- `m` takes the place of the elements behind the first `i`.
def splice (l : List α) (i : Nat) (m : List α) : List α := l.take i ++ m ++ l.drop (i + m.length)

variable {l l' m : List α} {i j k n : Nat}

theorem length_slice (h : i + n ≤ l.length) : (slice l i n).length = n := by
  rw [slice, List.length_take, List.length_drop]
  omega

theorem length_splice (h : i + m.length ≤ l.length) : (splice l i m).length = l.length := by
  simp only [splice, List.length_append, List.length_take, List.length_drop]
  omega

-- What is in front of the place stays.
theorem take_splice (hk : k ≤ i) (hi : i ≤ l.length) : (splice l i m).take k = l.take k := by
  have hlen : (l.take i).length = i := by
    rw [List.length_take]
    omega
  rw [splice, List.append_assoc, List.take_append_of_le_length (by omega), List.take_take,
    Nat.min_eq_left hk]

theorem slice_splice (hi : i ≤ l.length) : slice (splice l i m) i m.length = m := by
  have hlen : (l.take i).length = i := by
    rw [List.length_take]
    omega
  rw [slice, splice, List.append_assoc, List.drop_left' hlen, List.take_left]

theorem take_of_take (h : i ≤ j) (hj : l.take j = l'.take j) : l.take i = l'.take i := by
  have hi := congrArg (List.take i) hj
  rwa [List.take_take, List.take_take, Nat.min_eq_left h] at hi

-- A slice is a matter of what is in front of its end.
theorem slice_congr (h : l.take k = l'.take k) (hk : i + n ≤ k) : slice l i n = slice l' i n := by
  have hslice (l : List α) : slice l i n = ((l.take k).drop i).take n := by
    rw [List.drop_take, List.take_take, Nat.min_eq_left (by omega), slice]
  rw [hslice, hslice, h]

theorem splice_nil (l : List α) (i : Nat) : splice l i [] = l := by
  rw [splice, List.append_nil, List.length_nil, Nat.add_zero, List.take_append_drop]

-- All the elements are replaced.
theorem splice_all (h : m.length = l.length) : splice l 0 m = m := by
  rw [splice, List.take_zero, List.nil_append, Nat.zero_add, h, List.drop_length, List.append_nil]

-- Two splices side by side are one.
theorem splice_append {m' : List α} (h : i + m.length ≤ l.length) :
    splice (splice l i m) (i + m.length) m' = splice l i (m ++ m') := by
  have hlen : (l.take i ++ m).length = i + m.length := by
    rw [List.length_append, List.length_take]
    omega
  have htake : (splice l i m).take (i + m.length) = l.take i ++ m := by
    rw [splice, ← hlen, List.take_left]
  have hdrop : (splice l i m).drop (i + m.length + m'.length) = l.drop (i + (m ++ m').length) := by
    rw [splice, ← hlen, ← List.drop_drop, List.drop_left, hlen, List.drop_drop, List.length_append, Nat.add_assoc]
  rw [splice, htake, hdrop, splice, List.append_assoc (l.take i)]

-- A splice into what was just put in.
theorem splice_splice {m' : List α} (h : i + m.length ≤ l.length) (hk : k + m'.length ≤ m.length) :
    splice (splice l i m) (i + k) m' = splice l i (splice m k m') := by
  have hlen : (l.take i).length = i := by
    rw [List.length_take]
    omega
  have hfront (rest : List α) (n : Nat) : (l.take i ++ rest).take (i + n) = l.take i ++ rest.take n := by
    rw [List.take_append, hlen, List.take_of_length_le (by omega), Nat.add_sub_cancel_left]
  have hback (rest : List α) (n : Nat) : (l.take i ++ rest).drop (i + n) = rest.drop n := by
    rw [← List.drop_drop, List.drop_left' hlen]
  have htake : (splice l i m).take (i + k) = l.take i ++ m.take k := by
    rw [splice, List.append_assoc, hfront, List.take_append_of_le_length (by omega)]
  have hdrop : (splice l i m).drop (i + k + m'.length) = m.drop (k + m'.length) ++ l.drop (i + m.length) := by
    rw [splice, List.append_assoc, Nat.add_assoc, hback, List.drop_append_of_le_length hk]
  rw [splice, htake, hdrop, splice, length_splice hk, splice]
  simp only [List.append_assoc]

theorem splice_append_right {a b : List α} (h : a.length ≤ i) :
    splice (a ++ b) i m = a ++ splice b (i - a.length) m := by
  have htake : (a ++ b).take i = a ++ b.take (i - a.length) := by
    rw [List.take_append, List.take_of_length_le h]
  have hdrop : (a ++ b).drop (i + m.length) = b.drop (i - a.length + m.length) := by
    rw [List.drop_append, List.drop_eq_nil_of_le (by omega), List.nil_append, Nat.sub_add_comm h]
  rw [splice, htake, hdrop, splice]
  simp only [List.append_assoc]

theorem splice_middle {a b b' c : List α} (h : b'.length = b.length) :
    splice (a ++ b ++ c) a.length b' = a ++ b' ++ c := by
  have htake : (a ++ b ++ c).take a.length = a := by rw [List.append_assoc, List.take_left]
  have hdrop : (a ++ b ++ c).drop (a.length + b'.length) = c := by
    rw [h, ← List.length_append, List.drop_left]
  rw [splice, htake, hdrop]

-- What is behind a gap is moved to its place, and the gap is behind it then.
theorem splice_gap {a gap gap' b c : List α} (h : gap'.length = gap.length) :
    splice (splice (a ++ gap ++ b ++ c) a.length b) (a.length + b.length) gap' = a ++ b ++ gap' ++ c := by
  have hlen : (b ++ gap').length = (gap ++ b).length := by
    rw [List.length_append, List.length_append, h, Nat.add_comm]
  have hroom : a.length + b.length ≤ (a ++ gap ++ b ++ c).length := by
    simp only [List.length_append]
    omega
  rw [splice_append hroom, List.append_assoc a gap b, splice_middle hlen, List.append_assoc a b gap']

end Huks
