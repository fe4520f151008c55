import StompRelay.Text.Quoted
import StompRelay.Text.Utf8
/-!
# What is wrong with a frame

The reasons for which bytes are not a frame, or a message cannot become one, and their wording.

## Main definitions

* `Frame.Fault` — the reasons
* `Frame.Fault.message` — the wording
-/

namespace StompRelay.Frame

/-- A line of the head of a frame. -/
inductive HeadLine where
  | command
  | header
  deriving DecidableEq, Repr

/-- How a line is called in messages. -/
def HeadLine.name : HeadLine → String
  | .command => "command line"
  | .header => "header line"

/-- Why bytes are not a frame, or a message cannot become one. -/
inductive Fault where
  /-- The first line does not end. -/
  | unterminatedCommand
  /-- The bytes end after a header line, before the blank line. -/
  | missingBlankLine
  /-- The bytes end inside a header line. -/
  | unterminatedHeader
  /-- A line of the head is not text. -/
  | notText (line : HeadLine) (fault : Utf8.Fault)
  /-- The first line names no command. -/
  | unknownCommand (token : String)
  /-- A header line has no colon. -/
  | noColon (line : String)
  /-- A backslash stands before a character that it does not escape. -/
  | undefinedEscape (c : Char)
  /-- A name or value ends in an unpaired backslash. -/
  | danglingEscape
  /-- A name or value of a header holds the byte that ends frames. -/
  | nulInHeader (name : String)
  /-- The body holds the byte that ends frames. -/
  | nulInBody
  deriving DecidableEq, Repr

/-- The wording of a fault. -/
def Fault.message : Fault → String
  | .unterminatedCommand => "Unterminated command line"
  | .missingBlankLine => "Missing blank line after headers"
  | .unterminatedHeader => "Unterminated header line"
  | .notText line fault => "Invalid UTF-8 in " ++ line.name ++ ": " ++ fault.message
  | .unknownCommand token => "Unknown command '" ++ token ++ "'"
  | .noColon line => "Header line without ':': '" ++ line ++ "'"
  | .undefinedEscape c => "Undefined header escape '\\" ++ c.toString ++ "'"
  | .danglingEscape => "Dangling '\\' at end of header"
  | .nulInHeader name => "NUL byte in header " ++ Text.quoted name
  | .nulInBody => "NUL byte in frame body"

end StompRelay.Frame
