/-!
Splitting a text at a separator. The pieces, joined by the separator, give the text back; a text
without the separator is its own single piece.
-/

namespace QueryOptions.Text

def splitAtChar (separator : Char) : List Char → List (List Char)
  | [] => [[]]
  | c :: rest =>
      if c = separator then [] :: splitAtChar separator rest
      else match splitAtChar separator rest with
        | [] => [[c]]
        | piece :: others => (c :: piece) :: others

def dropPrefix? : (start text : List Char) → Option (List Char)
  | [], text => some text
  | _ :: _, [] => none
  | expected :: start, c :: text => if expected = c then dropPrefix? start text else none

theorem drop_prefix_append (start rest : List Char) : dropPrefix? start (start ++ rest) = some rest := by
  induction start with
  | nil => rfl
  | cons c start induction => simp [dropPrefix?, induction]

theorem eq_append_of_dropped {start text rest : List Char}
    (found : dropPrefix? start text = some rest) : text = start ++ rest := by
  induction start generalizing text with
  | nil => simpa [dropPrefix?] using found
  | cons c start induction =>
      cases text with
      | nil => simp [dropPrefix?] at found
      | cons d text =>
          by_cases same : c = d
          · subst same
            simp only [dropPrefix?, if_true] at found
            simp [induction found]
          · simp [dropPrefix?, same] at found

/-- The pieces between the occurrences of a text, found from the left and never overlapping.
The separator is the character `first` followed by `others`. -/
def splitAtText (first : Char) (others : List Char) : List Char → List (List Char)
  | [] => [[]]
  | c :: rest =>
      match found : dropPrefix? (first :: others) (c :: rest) with
      | some remaining =>
          have shorter : remaining.length < (c :: rest).length := by
            have := congrArg List.length (eq_append_of_dropped found)
            simp only [List.length_append, List.length_cons] at this ⊢
            omega
          [] :: splitAtText first others remaining
      | none =>
          match splitAtText first others rest with
          | [] => [[c]]
          | piece :: pieces => (c :: piece) :: pieces
  termination_by text => text.length
  decreasing_by
    · exact shorter
    · simp

def occursIn (piece : List Char) : List Char → Bool
  | [] => piece.isEmpty
  | c :: rest => (dropPrefix? piece (c :: rest)).isSome || occursIn piece rest

end QueryOptions.Text
