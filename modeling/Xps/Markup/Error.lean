/-!
# Markup errors

The ways in which a stream of tags breaks off, and their wording.
-/

namespace Xps

/-- A construct that has no end, or no known beginning. -/
inductive DelimiterFault
  | unknownBang
  | unclosedInstruction
  | unclosedComment
  | unclosedDoctype
  | unclosedCData
  | unclosedTag

/-- Tags that do not nest. -/
inductive NestingFault
  | namelessDoctype
  | missingEnd (name : String)
  | unmatchedEnd (name : String)
  | mismatchedEnd (expected found : String)

/-- A broken attribute, with the byte of the tag where it shows. -/
inductive AttributeFault
  | missingEquals (position : Nat)
  | missingValue (position : Nat)
  | unquotedValue (position : Nat)
  | missingQuote (position : Nat) (quote : Char)

inductive CharacterFault
  | sign
  | empty
  | invalidDigit
  | tooLarge
  | noCharacter (code : Nat)
  | zero

/-- A broken reference, with the bytes of the value that it takes. -/
inductive ReferenceFault
  | unknownEntity (start stop : Nat) (name : String)
  | unterminated (start stop : Nat)
  | character (fault : CharacterFault)

inductive MarkupError
  | delimiter (fault : DelimiterFault)
  | nesting (fault : NestingFault)
  | attributes (fault : AttributeFault)
  | reference (fault : ReferenceFault)

def DelimiterFault.message : DelimiterFault → String
  | unknownBang => "unknown or missed symbol in markup"
  | unclosedInstruction =>
    "processing instruction or xml declaration not closed: `?>` not found before end of input"
  | unclosedComment => "comment not closed: `-->` not found before end of input"
  | unclosedDoctype => "DOCTYPE not closed: `>` not found before end of input"
  | unclosedCData => "CDATA not closed: `]]>` not found before end of input"
  | unclosedTag => "tag not closed: `>` not found before end of input"

def NestingFault.message : NestingFault → String
  | namelessDoctype => "`<!DOCTYPE>` declaration does not contain a name of a document type"
  | missingEnd name =>
    "start tag not closed: `</" ++ name ++ ">` not found before end of input"
  | unmatchedEnd name => "close tag `</" ++ name ++ ">` does not match any open tag"
  | mismatchedEnd expected found =>
    "expected `</" ++ expected ++ ">`, but `</" ++ found ++ ">` was found"

def AttributeFault.message : AttributeFault → String
  | missingEquals position =>
    s!"position {position}: attribute key must be directly followed by `=` or space"
  | missingValue position => s!"position {position}: `=` must be followed by an attribute value"
  | unquotedValue position =>
    s!"position {position}: attribute value must be enclosed in `\"` or `'`"
  | missingQuote position quote =>
    s!"position {position}: missing closing quote `{quote}` in attribute value"

def CharacterFault.message : CharacterFault → String
  | sign => "unexpected number sign"
  | empty => "cannot parse integer from empty string"
  | invalidDigit => "invalid digit found in string"
  | tooLarge => "number too large to fit in target type"
  | noCharacter code => s!"`{code}` is not a valid codepoint"
  | zero => "0x0 character is not permitted in XML"

def ReferenceFault.message : ReferenceFault → String
  | unknownEntity start stop name => s!"at {start}..{stop}: unrecognized entity `{name}`"
  | unterminated start stop =>
    s!"Error while escaping character at range {start}..{stop}: Cannot find ';' after '&'"
  | character fault => "invalid character reference: " ++ fault.message

def MarkupError.message : MarkupError → String
  | delimiter fault => "syntax error: " ++ fault.message
  | nesting fault => "ill-formed document: " ++ fault.message
  | attributes fault => "error while parsing attribute: " ++ fault.message
  | reference fault => fault.message

end Xps
