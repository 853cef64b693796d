set_option autoImplicit false

/-!
# Reading a string by `std::getline`

A string stream is what is left to read and the state bits.  `getline` stops at the end of
the stream or after a delimiter, and sets the bits as the C++ standard says.
-/

namespace Firehose.Foundation

/-- A `std::stringstream` that is only read from; its `badbit` is never set. -/
structure StringStream (α : Type) where
  rest : List α
  eofbit : Bool
  failbit : Bool

namespace StringStream

variable {α : Type}

/-- A stream over a string. -/
def ofString (string : List α) : StringStream α := ⟨string, false, false⟩

/-- `good` -/
def good (ss : StringStream α) : Bool := !ss.eofbit && !ss.failbit

/-- The characters up to the delimiter or the end: those stored after `str`, what is left,
and whether the end was met. -/
def extract [DecidableEq α] (delimiter : α) (str : List α) : List α → List α × List α × Bool
  | [] => (str, [], true)
  | c :: rest => if c = delimiter then (str, rest, false) else extract delimiter (str ++ [c]) rest

/-- `std::getline`.  The sentry fails on a stream that is not good; where no character is
extracted, not even a delimiter, the call fails too. -/
def getline [DecidableEq α] (ss : StringStream α) (str : List α) (delimiter : α) :
    StringStream α × List α :=
  if ss.good then
    let r := extract delimiter [] ss.rest
    (⟨r.2.1, r.2.2, r.2.1.length == ss.rest.length⟩, r.1)
  else ({ ss with failbit := true }, str)

variable [DecidableEq α] {ss : StringStream α} {delimiter : α}

theorem extract_of_not_mem (str : List α) {rest : List α} (h : delimiter ∉ rest) :
    extract delimiter str rest = (str ++ rest, [], true) := by
  induction rest generalizing str with
  | nil => simp [extract]
  | cons c rest ih =>
      obtain ⟨hne, hrest⟩ := List.ne_and_not_mem_of_not_mem_cons h
      rw [extract, if_neg (Ne.symm hne), ih _ hrest]
      simp

theorem extract_append (str : List α) {piece : List α} (h : delimiter ∉ piece)
    (after : List α) :
    extract delimiter str (piece ++ delimiter :: after) = (str ++ piece, after, false) := by
  induction piece generalizing str with
  | nil => simp [extract]
  | cons c piece ih =>
      obtain ⟨hne, hpiece⟩ := List.ne_and_not_mem_of_not_mem_cons h
      rw [List.cons_append, extract, if_neg (Ne.symm hne), ih _ hpiece]
      simp

/-- Without a delimiter the rest of the stream is read, and the stream is not good any
more. -/
theorem getline_of_not_mem (str : List α) (hgood : ss.good = true)
    (h : delimiter ∉ ss.rest) :
    ∃ ss', ss.getline str delimiter = (ss', ss.rest) ∧ ss'.good = false := by
  rw [getline, if_pos hgood, extract_of_not_mem [] h]
  exact ⟨_, rfl, rfl⟩

/-- A line that a delimiter ends is read without it, and the stream stays good. -/
theorem getline_of_append (str : List α) (hgood : ss.good = true) {piece after : List α}
    (hrest : ss.rest = piece ++ delimiter :: after) (h : delimiter ∉ piece) :
    ss.getline str delimiter = (ofString after, piece) := by
  have hshort : (after.length == (piece ++ delimiter :: after).length) = false := by
    rw [beq_eq_false_iff_ne, List.length_append, List.length_cons]
    omega
  rw [getline, if_pos hgood, hrest, extract_append [] h, ofString]
  simp only [hshort, List.nil_append]

/-- Either way a stream ends a line. -/
theorem getline_cases (str : List α) (delimiter : α) (hgood : ss.good = true) :
    (delimiter ∉ ss.rest ∧
      ∃ ss', ss.getline str delimiter = (ss', ss.rest) ∧ ss'.good = false) ∨
    ∃ piece after, ss.rest = piece ++ delimiter :: after ∧ delimiter ∉ piece ∧
      ss.getline str delimiter = (ofString after, piece) := by
  by_cases hmem : delimiter ∈ ss.rest
  · obtain ⟨piece, after, hrest, hpiece⟩ := List.eq_append_cons_of_mem hmem
    exact Or.inr ⟨piece, after, hrest, hpiece, getline_of_append str hgood hrest hpiece⟩
  · exact Or.inl ⟨hmem, getline_of_not_mem str hgood hmem⟩

/-- The calls of `getline` that a stream is still good for, at most. -/
def linesLeft (ss : StringStream α) : Nat := if ss.good then ss.rest.length + 1 else 0

theorem linesLeft_getline (str : List α) (hgood : ss.good = true) :
    (ss.getline str delimiter).1.linesLeft < ss.linesLeft := by
  rcases getline_cases str delimiter hgood with
    ⟨-, ss', hline, hbad⟩ | ⟨piece, after, hrest, -, hline⟩
  · rw [hline]
    simp [linesLeft, hgood, hbad]
  · rw [hline]
    have hafter : (ofString after).good = true := rfl
    simp only [linesLeft, hgood, hafter, if_true, hrest, List.length_append, List.length_cons]
    show after.length + 1 < _
    omega

end StringStream

/-! ## The pieces of a list -/

section Pieces

variable {α : Type} [DecidableEq α] {d : α}

theorem length_splitOn (l : List α) : (l.splitOn d).length = l.count d + 1 := by
  induction l with
  | nil => rfl
  | cons c l ih =>
      rw [List.splitOn_cons_eq_if_modifyHead, List.count_cons]
      split
      · rw [List.length_cons, ih]
      · rw [List.length_modifyHead, ih, Nat.add_zero]

theorem not_mem_of_mem_splitOn {l piece : List α} (h : piece ∈ l.splitOn d) : d ∉ piece := by
  induction l generalizing piece with
  | nil =>
      rw [List.splitOn_nil, List.mem_singleton] at h
      subst h
      exact List.not_mem_nil
  | cons c l ih =>
      rw [List.splitOn_cons_eq_if_modifyHead] at h
      split at h
      · rcases List.mem_cons.mp h with rfl | hrest
        · exact List.not_mem_nil
        · exact ih hrest
      · rename_i hne
        obtain ⟨first, rest, heq⟩ := List.exists_cons_of_ne_nil (List.splitOn_ne_nil d l)
        rw [heq] at h ih
        rcases List.mem_cons.mp h with rfl | hrest
        · -- the first piece grows by a value that is no delimiter
          rw [List.mem_cons, not_or]
          exact ⟨fun hd => hne (by simp [hd]), ih List.mem_cons_self⟩
        · exact ih (List.mem_cons_of_mem _ hrest)

end Pieces

end Firehose.Foundation
