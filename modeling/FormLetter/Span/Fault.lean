namespace FormLetter

/-- Why a tag in a paragraph has no end. -/
inductive SpanFault where
  /-- Another tag opens before it is closed. -/
  | reopened
  /-- Nothing closes it. -/
  | unclosed
  deriving DecidableEq, Repr

def SpanFault.message : SpanFault → String
  | reopened => "'\x7b\x7b' is not closed before the next '\x7b\x7b'"
  | unclosed => "'\x7b\x7b' is not closed before the end of the paragraph"

end FormLetter
