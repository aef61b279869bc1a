import RequestFeed.Total
/-!
# Breaking lines

Breaks a line that is too wide into lines that are not. A break takes the place of a space where
that can be, and falls inside a word only when the word is wider than a whole line.

*Ragged ends.* A line that is full but for `LineBreak.slack` characters takes no further word. So
a word that is wider than a line starts on the line before it only when more room than that is
left there.
-/

namespace RequestFeed
namespace LineBreak

/-- Room that is too small for one more word. -/
def slack : Nat := 2

/-- The words of a line are what stands between its spaces. -/
def words (line : String) : List (List Char) := (line.splitOn " ").map String.toList

/-- A word at the end of a line. A line that has nothing on it needs no space before the word. -/
def join (line : Array Char) (word : List Char) : Array Char :=
  if line.isEmpty then word.toArray else line.push ' ' ++ word.toArray

/-- The room that is left for one more word. -/
def room (width : Nat) (line : Array Char) : Nat :=
  if line.isEmpty then width else width - line.size - 1

def text (line : Array Char) : String := String.ofList line.toList

/-- Puts words on a line that has been begun, and on further lines when it is full. -/
def fill (width : Nat) (line : Array Char) : List (List Char) → List String
  | [] => if line.isEmpty then [] else [text line]
  | word :: rest =>
    if word.length ≤ room width line then
      if (join line word).size > width - slack then
        text (join line word) :: fill width #[] rest
      else fill width (join line word) rest
    else if _hline : 0 < line.size ∧ room width line ≤ slack then
      text line :: fill width #[] (word :: rest)
    else if _hword : width < word.length then
      text (join line (word.take (Nat.max 1 (room width line)))) ::
        fill width #[] (word.drop (Nat.max 1 (room width line)) :: rest)
    else if word.length > width - slack then
      text line :: String.ofList word :: fill width #[] rest
    else text line :: fill width word.toArray rest
termination_by words => (total (fun w => w.length + 1) words, line.size)
decreasing_by
  all_goals first
    | exact Prod.Lex.right _ _hline.1
    | apply Prod.Lex.left
      have : 1 ≤ Nat.max 1 (room width line) := Nat.le_max_left 1 (room width line)
      simp only [total_cons, List.length_drop]
      omega

/-- The lines that a line is broken into. A line that is not too wide stays as it is. -/
def lines (width : Nat) (line : String) : List String :=
  if line.length ≤ width then [line] else fill width #[] (words line)

end LineBreak
end RequestFeed
