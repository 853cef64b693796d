import Firehose.Api.Message
import Firehose.Foundation.StringStream

set_option autoImplicit false

/-!
# Splitting a string (`util.cpp`)

The lists of addresses and the ranges of topics on the command lines are split by a loop
over a string stream, which runs as long as the stream is good.
-/

namespace Firehose.Util

open Firehose.Api Firehose.Foundation

/-- The loop of `split`: each turn reads a line into a new string. -/
def splitLoop (delimiter : UInt8) (ss : StringStream UInt8) (result : List Bytes) : List Bytes :=
  if ss.good = true then
    let line := ss.getline [] delimiter
    splitLoop delimiter line.1 (result ++ [line.2])
  else result
termination_by ss.linesLeft
decreasing_by exact StringStream.linesLeft_getline [] ‹_›

/-- `split` -/
def split (string : Bytes) (delimiter : UInt8) : List Bytes :=
  splitLoop delimiter (.ofString string) []

variable {delimiter : UInt8}

/-- The loop adds the pieces of what is left to read. -/
theorem splitLoop_eq {ss : StringStream UInt8} (hgood : ss.good = true) (result : List Bytes) :
    splitLoop delimiter ss result = result ++ ss.rest.splitOn delimiter := by
  induction ss, result using splitLoop.induct delimiter with
  | case1 ss result hgood line ih =>
      rw [splitLoop, if_pos hgood]
      rcases StringStream.getline_cases [] delimiter hgood with
        ⟨hnot, ss', hline, hbad⟩ | ⟨piece, after, hrest, hpiece, hline⟩
      · -- the last line leaves the loop
        rw [hline, splitLoop, if_neg (by simp [hbad]), List.splitOn_eq_singleton hnot]
      · have hnext := ih (by simp only [line, hline]; rfl)
        simp only [line, hline] at hnext ⊢
        rw [hnext, hrest, List.splitOn_append_cons_self_of_not_mem hpiece, List.append_assoc]
        rfl
  | case2 ss result hbad => exact absurd hgood hbad

theorem split_eq_splitOn (string : Bytes) (delimiter : UInt8) :
    split string delimiter = string.splitOn delimiter :=
  splitLoop_eq rfl []

/-- Splitting takes a string apart at each delimiter and nowhere else, joining the pieces
gives the string back, and splitting undoes joining. -/
theorem split_join (delimiter : UInt8) :
    (∀ string, (split string delimiter).length = string.count delimiter + 1 ∧
      (∀ piece ∈ split string delimiter, delimiter ∉ piece) ∧
      [delimiter].intercalate (split string delimiter) = string) ∧
    ∀ pieces : List Bytes, pieces ≠ [] → (∀ piece ∈ pieces, delimiter ∉ piece) →
      split ([delimiter].intercalate pieces) delimiter = pieces := by
  constructor
  · intro string
    rw [split_eq_splitOn]
    exact ⟨length_splitOn string, fun _ => not_mem_of_mem_splitOn,
      List.intercalate_splitOn delimiter⟩
  · intro pieces hne hpieces
    rw [split_eq_splitOn]
    exact List.splitOn_intercalate delimiter hpieces hne

/-- An address list that ends with a comma has an empty address at its end. -/
theorem split_join_trailing :
    (split [97, 44] 44).length = 2 ∧ split ([44].intercalate [[97], []]) 44 = [[97], []] :=
  ⟨((split_join 44).1 [97, 44]).1, (split_join 44).2 [[97], []] (by decide) (by decide)⟩

end Firehose.Util
