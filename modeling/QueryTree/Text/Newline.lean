/-!
# Line ends

* `unifyNewlines` : text in which every line ends in a line feed
-/

namespace QueryTree.Text

/-- Text in which a line feed stands for each of the three line ends: line feed, carriage return,
    and the two together. -/
def unifyNewlines : List Char → List Char
  | '\r' :: '\n' :: cs => '\n' :: unifyNewlines cs
  | '\r' :: cs => '\n' :: unifyNewlines cs
  | c :: cs => c :: unifyNewlines cs
  | [] => []

end QueryTree.Text
