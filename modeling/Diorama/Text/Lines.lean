namespace Diorama.Text

-- Drops the carriage return at the end of a line that a newline has ended. The characters come last
-- to first.
def dropReturn : List Char → List Char
  | '\r' :: line => line
  | line => line

def linesFrom (line : List Char) : List Char → List (List Char)
  | [] => if line.isEmpty then [] else [line.reverse]
  | c :: cs =>
    if c = '\n' then (dropReturn line).reverse :: linesFrom [] cs else linesFrom (c :: line) cs

def lines (s : String) : List String := (linesFrom [] s.toList).map String.ofList

end Diorama.Text
