/-!
# Lines

What is printed is looked at line by line. A line ends at a line feed, and a carriage return right
before it is part of the line's end.
-/

namespace SignalBox.Text

/-- The first line of a text that is printed with a line feed after it. -/
def firstLine (text : String) : String :=
  let line := text.toList.takeWhile (· ≠ '\n')
  String.ofList (if line.getLast? = some '\r' then line.dropLast else line)

end SignalBox.Text
