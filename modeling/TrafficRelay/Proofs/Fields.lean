import Mathlib.Data.List.TakeWhile
import TrafficRelay.Bytes

/-!
# Fields and first lines

Cutting at every separator undoes putting separators between fields, as long as
there is a field and none has a separator in it.  Likewise a byte string has a
first line and a rest in one way only.
-/

namespace TrafficRelay

namespace Bytes

theorem consPiece_self (separator : UInt8) (pieces : List Bytes) :
    consPiece separator separator pieces = [] :: pieces := by
  simp [consPiece]

theorem consPiece_of_ne {separator byte : UInt8} (different : byte ≠ separator)
    (piece : Bytes) (others : List Bytes) :
    consPiece separator byte (piece :: others) = (byte :: piece) :: others := by
  simp [consPiece, different]

theorem splitOn_eq_list_splitOn (separator : UInt8) (bytes : Bytes) :
    splitOn separator bytes = List.splitOn separator bytes := by
  induction bytes with
  | nil => rfl
  | cons byte bytes induction =>
      have nonempty := List.splitOn_ne_nil separator bytes
      rw [splitOn_cons, induction]
      unfold List.splitOn at nonempty ⊢
      rw [List.splitOnP_cons_eq_if_modifyHead]
      by_cases separates : byte = separator
      · subst byte
        simp [consPiece_self]
      · cases found : List.splitOnP (· == separator) bytes with
        | nil => exact (nonempty found).elim
        | cons piece others => simp [consPiece_of_ne separates, separates]

theorem not_mem_of_mem_splitOn {separator : UInt8} {bytes piece : Bytes}
    (member : piece ∈ splitOn separator bytes) : separator ∉ piece := by
  induction bytes generalizing piece with
  | nil =>
      obtain rfl : piece = [] := by simpa using member
      exact List.not_mem_nil
  | cons byte bytes induction =>
      rw [splitOn_cons] at member
      by_cases separates : byte = separator
      · subst byte
        rw [consPiece_self] at member
        rcases List.mem_cons.mp member with rfl | later
        · exact List.not_mem_nil
        · exact induction later
      · cases found : splitOn separator bytes with
        | nil =>
            rw [splitOn_eq_list_splitOn] at found
            exact (List.splitOn_ne_nil separator bytes found).elim
        | cons first others =>
            rw [found, consPiece_of_ne separates] at member
            rcases List.mem_cons.mp member with rfl | later
            · have absent : separator ∉ first := by
                apply induction
                rw [found]
                exact List.mem_cons_self
              simp [absent, Ne.symm separates]
            · apply induction
              rw [found]
              exact List.mem_cons_of_mem first later

theorem splitOn_eq_iff {separator : UInt8} {bytes : Bytes} {pieces : List Bytes} :
    splitOn separator bytes = pieces ↔
      pieces ≠ [] ∧ (∀ piece ∈ pieces, separator ∉ piece) ∧
        [separator].intercalate pieces = bytes := by
  constructor
  · rintro rfl
    refine ⟨?_, ?_, ?_⟩
    · rw [splitOn_eq_list_splitOn]
      exact List.splitOn_ne_nil separator bytes
    · intro piece member
      exact not_mem_of_mem_splitOn member
    · rw [splitOn_eq_list_splitOn]
      exact List.intercalate_splitOn separator
  · rintro ⟨nonempty, absent, rfl⟩
    rw [splitOn_eq_list_splitOn]
    exact List.splitOn_intercalate separator absent nonempty

theorem mem_intercalate {separator byte : UInt8} {pieces : List Bytes}
    (member : byte ∈ [separator].intercalate pieces) :
    byte = separator ∨ ∃ piece ∈ pieces, byte ∈ piece := by
  induction pieces with
  | nil => cases member
  | cons first others induction =>
      cases others with
      | nil => exact Or.inr ⟨first, List.mem_cons_self, by simpa using member⟩
      | cons second others =>
          rw [List.intercalate_cons_cons, List.append_assoc] at member
          rcases List.mem_append.mp member with inFirst | later
          · exact Or.inr ⟨first, List.mem_cons_self, inFirst⟩
          · rcases List.mem_cons.mp later with same | later
            · exact Or.inl same
            · rcases induction later with same | ⟨piece, inOthers, inPiece⟩
              · exact Or.inl same
              · exact Or.inr ⟨piece, List.mem_cons_of_mem first inOthers, inPiece⟩

/-- Everything before the first occurrence of a separator. -/
theorem takeWhile_piece {separator : UInt8} {piece : Bytes} (absent : separator ∉ piece)
    (rest : Bytes) : (piece ++ separator :: rest).takeWhile (· ≠ separator) = piece := by
  have before : ∀ byte ∈ piece, decide (byte ≠ separator) = true := by
    intro byte member
    apply decide_eq_true
    rintro rfl
    exact absent member
  rw [List.takeWhile_append_of_pos before]
  simp

section

variable {line : Bytes} (absent : newline ∉ line)

include absent

theorem ne_newline_of_mem : ∀ byte ∈ line, decide (byte ≠ newline) = true := by
  intro byte member
  apply decide_eq_true
  rintro rfl
  exact absent member

theorem takeWhile_line (body : Bytes) :
    (line ++ newline :: body).takeWhile (· ≠ newline) = line :=
  takeWhile_piece absent body

theorem cutLine?_line (body : Bytes) :
    cutLine? (line ++ newline :: body) = some (line, body) := by
  rw [cutLine?, takeWhile_line absent,
    List.dropWhile_append_of_pos (ne_newline_of_mem absent)]
  simp

theorem cutLine?_eq_none : cutLine? line = none := by
  rw [cutLine?, List.dropWhile_eq_nil_iff.mpr (ne_newline_of_mem absent)]

end

/-- A byte string with a newline in it has a first line. -/
theorem exists_line_of_newline_mem {bytes : Bytes} (present : newline ∈ bytes) :
    ∃ line body, newline ∉ line ∧ bytes = line ++ newline :: body := by
  obtain ⟨line, body, rfl, absent⟩ := List.eq_append_cons_of_mem present
  exact ⟨line, body, absent, rfl⟩

end Bytes

end TrafficRelay
