/-!
# Newlines of text files

A text file may end its lines with a line feed, a carriage return or both. `unifyNewlines` leaves
the line feed alone.
-/

namespace MemberOrder

namespace Text

/-- The text with one line feed for each end of a line. -/
def unifyNewlines : List Char → List Char
  | [] => []
  | '\r' :: '\n' :: rest => '\n' :: unifyNewlines rest
  | '\r' :: rest => '\n' :: unifyNewlines rest
  | c :: rest => c :: unifyNewlines rest

end Text

end MemberOrder
